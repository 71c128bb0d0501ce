import PySwitch.PermitInvariant

namespace PySwitch.Recovery

open Async CircuitHistory Permit Scenario

/-- Nobody recovers a circuit by hand, and no provider call returns to a circuit that is not
closed and has opened since the call's permit. -/
def Timely (s : ServiceState) : ServiceLabel → Prop
  | .call _ (.recover _) => False
  | .resume t (.outcome (.ok _)) => ∀ p paymentId,
      s.At t (.provider (.finishPayment p paymentId)) → (s.world.circuit p).state ≠ .closed →
      overtaken t p s.world.log = false
  | _ => True

/-- Every circuit that closed did so from half open, after a success of a call that was
permitted in that state since the circuit had last opened. -/
def ProbedRecovery (log : List Happening) : Prop :=
  ∀ newer older t p previous, log = newer ++ .transition t p previous .closed :: older →
    previous = .halfOpen ∧ permitState t p older = some .halfOpen ∧ overtaken t p older = false

theorem probedRecovery_cons {log : List Happening} {h : Happening} (hl : ProbedRecovery log)
    (hh : ∀ t p previous, h = .transition t p previous .closed → previous = .halfOpen ∧
      permitState t p log = some .halfOpen ∧ overtaken t p log = false) :
    ProbedRecovery (h :: log) := by
  intro newer older t p previous he
  cases newer with
  | nil =>
    obtain ⟨rfl, rfl⟩ := List.cons.inj he
    exact hh t p previous rfl
  | cons x newer => exact hl newer older t p previous (List.cons.inj he).2

theorem probedRecovery_moveCircuit {w : World} {t : Tid} {p : Provider} {c : CircuitBreaker}
    (hl : ProbedRecovery w.log) (hc : c.state = .closed → (w.circuit p).state ≠ .closed →
      (w.circuit p).state = .halfOpen ∧ permitState t p w.log = some .halfOpen ∧
        overtaken t p w.log = false) : ProbedRecovery (w.moveCircuit t p c).log := by
  obtain ⟨h, -⟩ | ⟨h, hs⟩ := moveCircuit_log (t := t) (p := p) w c
  · rwa [h]
  · rw [h]
    refine probedRecovery_cons hl ?_
    rintro u q previous he
    obtain ⟨rfl, rfl, rfl, hclosed⟩ := Happening.transition.inj he
    exact hc hclosed fun hp => hs (hclosed.trans hp.symm)

theorem probedRecovery_other {w w' : World} {e : Effect} (he : ∀ c, e ≠ .circuit c)
    (h : e.Touches w w') (hl : ProbedRecovery w.log) : ProbedRecovery w'.log := by
  obtain hw | ⟨x, hx, hw⟩ := h.log he
  · rwa [hw]
  · rw [hw]
    refine probedRecovery_cons hl ?_
    rintro t p previous rfl
    cases hx

structure Law (w : World) (st : Statuses) : Prop where
  probed : ProbedRecovery w.log
  timely : ∀ {t u p state}, st t = some u → u.phase = .returned p state →
    (w.circuit p).state = .closed ∨ overtaken t p w.log = false
  attended : ∀ {t u p}, st t = some u → u.phase ≠ .recovering p

/-- A result is held from the provider's answer to its recording. -/
theorem next_returned {g : Stage} {e : Effect} {r : e.Reply} (hok : ok g e)
    {p : Provider} {state : CircuitState} (h : next g e r = .returned p state) :
    (∃ q n, e = .semaphore (.release q n)) ∧ g = .returned p state ∨
    ∃ paymentId, e = .provider (.finishPayment p paymentId) ∧ g = .calling p state := by
  cases g with
  | returned q st =>
    obtain ⟨q', n, rfl⟩ | rfl := ok_returned hok
    · cases h
      exact .inl ⟨⟨q', n, rfl⟩, rfl⟩
    · cases h
  | calling q st =>
    obtain ⟨paymentId, rfl⟩ := ok_calling hok
    cases r with
    | ok result =>
      cases h
      exact .inr ⟨paymentId, rfl, rfl⟩
    | error x => cases x <;> cases h
  | _ =>
    unfold next at h
    split at h <;> first
      | split at h <;> cases h
      | simp_all

section Step

variable {cfg : Config} {profile : Profile} {s : ServiceState} {l : ServiceLabel} {t : Tid}
  {c : Call} {g : Stage} {e : Effect} {r : e.Reply} {w : World} {p : Provider}
  {state : CircuitState}

theorem probed_reply (base : Inv s.world s.running (discipline.statuses s))
    (law : Law s.world (discipline.statuses s))
    (ht : discipline.statuses s t = some ⟨c, g, false⟩) (hok : ok g e)
    (h : Delivered (system cfg profile) s l t e (.reply r w)) : ProbedRecovery w.log := by
  obtain ⟨a, rfl⟩ | he := not_circuit_or e
  · cases a with
    | allowRequest q =>
      obtain ⟨now, -, -, -, rfl⟩ := allowRequest_reply h
      have moved : ProbedRecovery (s.world.moveCircuit t q
          ((s.world.circuit q).allowRequest now).2).log :=
        probedRecovery_moveCircuit law.probed fun hc hs =>
          absurd (CircuitBreaker.closed_of_allowRequest hc) hs
      split
      · exact probedRecovery_cons moved nofun
      · exact moved
    | recordSuccess q =>
      obtain ⟨-, -, rfl⟩ := recordSuccess_reply h
      refine probedRecovery_moveCircuit law.probed fun _ hs => ?_
      cases g with
      | returned p state =>
        obtain rfl : q = p := hok
        have hcurrent := (law.timely ht rfl).resolve_left hs
        have standing := base.standing ht rfl
        obtain ⟨hopen, hclosed⟩ := standing.valid hcurrent
        have hhalf : (s.world.circuit q).state = .halfOpen := by
          cases hq : (s.world.circuit q).state <;> simp_all
        have hstate : state = .halfOpen := by
          cases state with
          | closed => exact absurd (hclosed rfl) hs
          | opened => exact absurd rfl standing.ready
          | halfOpen => rfl
        exact ⟨hhalf, hstate ▸ standing.granted, hcurrent⟩
      | recovering p => exact absurd rfl (law.attended ht)
      | _ => exact hok.elim
    | recordFailure q =>
      obtain ⟨now, -, -, -, rfl⟩ := recordFailure_reply h
      exact probedRecovery_moveCircuit law.probed fun hc hs =>
        absurd (CircuitBreaker.closed_of_recordFailure hc) hs
  · exact probedRecovery_other he (reply_touches h) law.probed

theorem timely_reply (meets : Timely s l) (law : Law s.world (discipline.statuses s))
    (ht : discipline.statuses s t = some ⟨c, g, false⟩) (hok : ok g e)
    (h : Delivered (system cfg profile) s l t e (.reply r w))
    (hn : next g e r = .returned p state) :
    (w.circuit p).state = .closed ∨ overtaken t p w.log = false := by
  obtain ⟨⟨q, n, rfl⟩, rfl⟩ | ⟨paymentId, rfl, rfl⟩ := next_returned hok hn
  · obtain ⟨_, rfl⟩ := reply_touches h
    exact law.timely ht rfl
  · have reached := h.reached
    obtain ⟨hl, -, rfl⟩ := finishPayment_reply h
    cases r with
    | error x => cases x <;> cases hn
    | ok result =>
      obtain rfl := hl.resolve_right fun hc => nomatch hc.2
      by_cases hclosed : (s.world.circuit p).state = .closed
      · exact .inl hclosed
      · exact .inr ((overtaken_other rfl).trans (meets p paymentId reached hclosed))

theorem next_recovering (hok : ok g e) (hn : next g e r = .recovering p) : g = .recovering p := by
  cases g with
  | recovering q =>
    unfold ok at hok
    split at hok <;> simp_all [next]
  | _ =>
    unfold next at hn
    split at hn <;> first
      | split at hn <;> cases hn
      | simp_all

end Step

theorem law_extends (cfg : Config) (profile : Profile) :
    Extends (system cfg profile) Timely discipline Inv fun w _ st => Law w st where
  call := fun {s t c b v} meets law new hg => {
    probed := law.probed
    timely := fun hu hp => by
      obtain ⟨rfl, rfl⟩ | ⟨-, hu⟩ := update_cases hu
      · cases c <;> cases hp
      · exact law.timely hu hp
    attended := fun hu hp => by
      obtain ⟨rfl, rfl⟩ | ⟨-, hu⟩ := update_cases hu
      · cases c with
        | recover provider => exact meets
        | _ => cases hp
      · exact law.attended hu hp }
  reply := fun {s l t c g e r w} meets base law ht hok h b v hg _ => {
    probed := probed_reply base law ht hok h
    timely := fun hu hp => by
      obtain ⟨rfl, rfl⟩ | ⟨hne, hu⟩ := update_cases hu
      · exact timely_reply meets law ht hok h hp
      · exact absurd (by rw [hp]; trivial) (not_pending h base hne hu)
    attended := fun hu hp => by
      obtain ⟨rfl, rfl⟩ | ⟨-, hu⟩ := update_cases hu
      · exact law.attended ht (next_recovering hok hp)
      · exact law.attended hu hp }
  wait := fun {s l t c g e w} _ base law ht hok h => by
    obtain ⟨a, rfl⟩ | he := not_circuit_or e
    · exact absurd h circuit_never_waits
    · exact {
        probed := probedRecovery_other he (wait_touches h) law.probed
        timely := fun hu hp =>
          absurd (by rw [hp]; trivial) (wait_not_pending h base ht hok hu)
        attended := law.attended }
  outside := fun {s a w} _ law moved => by
    cases a with
    | setProviderConcurrency provider limit =>
      cases moved
      exact ⟨law.probed, law.timely, law.attended⟩
    | tick elapsed =>
      obtain ⟨_, -, rfl⟩ := Option.map_eq_some_iff.mp moved
      exact ⟨law.probed, law.timely, law.attended⟩

/-- Circuits recover through probes only, in a run in which every result that reaches an
unhealthy circuit is of a call permitted since the circuit last opened. -/
theorem probed_recovery (cfg : Config) (profile : Profile) (circuit : CircuitBreaker)
    (concurrency : List (Provider × ℕ)) {s : ServiceState}
    (h : Reaches (system cfg profile) Timely (.empty (.initial circuit concurrency)) s) :
    ProbedRecovery s.world.log := by
  have first : Inv (.initial circuit concurrency) none (fun _ => none) ∧
      Law (.initial circuit concurrency) (fun _ => none) := by
    refine ⟨⟨nofun, nofun⟩, ⟨?_, nofun, nofun⟩⟩
    intro newer older t p previous he
    cases newer <;> cases he
  exact (((law_extends cfg profile).maintains (maintains cfg profile) fun _ _ _ => trivial).reaches_empty first h).2.2.probed

/-- A payment after the cooldown is let through as a probe, and waits for the provider. -/
def probeRun : List ServiceLabel :=
  failedRun 0 0 1 ++ create 1 31 (card "b") 1 ++ ask 1 31 ++ start 1

theorem probed_recovery_single : ∃ s : ServiceState,
    s.world.log.head? = some (.transition 1 "stripe" .halfOpen .closed) ∧
    ProbedRecovery s.world.log := by
  have h : ∃ s ∈ run (system (service ["stripe"] 1) {}) probeRun (.empty (.initial fragile [])),
      s.At 1 (.provider (.finishPayment "stripe" 5)) ∧
      overtaken 1 "stripe" s.world.log = false ∧
      ∃ s' ∈ run (system (service ["stripe"] 1) {}) (returns 1 "r" ++ [.enter 1 .go]) s,
        s'.world.log.head? = some (.transition 1 "stripe" .halfOpen .closed) := by
    decide +kernel
  obtain ⟨s, moved, reached, current, s', moved', recovered⟩ := h
  have meets : ∀ l ∈ probeRun, ∀ s, Timely s l := by
    simp [probeRun, failedRun, create, ask, start, raises, recordFailure, event, finish, Timely]
  have before := run_reaches _ (throughout_of_forall _ meets _) moved
  have after : Throughout (system (service ["stripe"] 1) {}) Timely
      (returns 1 "r" ++ [.enter 1 .go]) s := by
    refine ⟨fun p paymentId hat _ => ?_, fun _ _ => ⟨trivial, fun _ _ => trivial⟩⟩
    cases hat.unique reached
    exact current
  exact ⟨s', recovered, probed_recovery _ _ _ _ (before.trans (run_reaches _ after moved'))⟩

/-- Two payments are let through while the circuit is closed. The first one opens it, the
second one closes it again at once. -/
def lateRun : List ServiceLabel :=
  create 0 0 (card "a") 1 ++ ask 0 0 ++ start 0 ++
  create 1 0 (card "b") 1 ++ ask 1 0 ++ start 1 ++ raises 0 unavailable ++
  recordFailure 0 1 ++ event 0 1 ++ [.enter 0 .go, .enter 0 .go, .enter 0 (.at 1)] ++ finish 0 1 ++
  returns 1 "r" ++ [.enter 1 .go]

theorem late_success_closes_opened :
    ∃ s ∈ run (system (service ["stripe"] 1) {}) lateRun (.empty (.initial fragile [])),
    ¬ ProbedRecovery s.world.log := by
  have h : ∃ s ∈ run (system (service ["stripe"] 1) {}) lateRun (.empty (.initial fragile [])),
      s.world.log.head? = some (.transition 1 "stripe" .opened .closed) := by
    decide +kernel
  obtain ⟨s, moved, closed⟩ := h
  refine ⟨s, moved, fun probed => ?_⟩
  obtain ⟨older, he⟩ := List.head?_eq_some_iff.mp closed
  cases (probed [] older _ _ _ he).1

end PySwitch.Recovery
