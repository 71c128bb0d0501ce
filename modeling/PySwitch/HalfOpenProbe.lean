import PySwitch.PermitInvariant

namespace PySwitch.HalfOpenProbe

open Async CircuitHistory Permit Scenario

/-- What ends an attempt without an outcome for the circuit. -/
def abandons : Input → Bool
  | .cancel => true
  | .outcome (.error (.provider _)) => false
  | .outcome (.error _) => true
  | _ => false

/-- The task holds one of the probes of a half open circuit. -/
def Probing (w : World) (t : Tid) (p : Provider) : Prop :=
  (w.circuit p).state = .halfOpen ∧ permitState t p w.log = some .halfOpen ∧
    overtaken t p w.log = false

/-- Neither in the queue of a semaphore nor at a provider is a probe abandoned. -/
def Recorded (s : ServiceState) (l : ServiceLabel) : Prop :=
  ∀ t i p, l = .resume t i → abandons i = true →
    (∃ n, s.At t (.semaphore (.acquire p n))) ∨
      (∃ paymentId, s.At t (.provider (.finishPayment p paymentId))) →
    ¬ Probing s.world t p

/-- Every probe a half open circuit has counted is still held by somebody. -/
def Accounted (w : World) (st : Statuses) : Prop :=
  ∀ p, (w.circuit p).state = .halfOpen → 0 < (w.circuit p).probes →
    ∃ t u, st t = some u ∧ u.phase.permit = some (p, .halfOpen) ∧ overtaken t p w.log = false

section Step

variable {cfg : Config} {profile : Profile} {s : ServiceState} {l : ServiceLabel} {t : Tid}
  {c : Call} {g : Stage} {e : Effect} {r : e.Reply} {w : World} {p : Provider}
  {state : CircuitState}

/-- A permit is held on to until an outcome is recorded, unless the attempt is abandoned. -/
theorem permit_kept (h : Delivered (system cfg profile) s l t e (.reply r w)) (hok : ok g e)
    (he : ∀ c, e ≠ .circuit c) (hp : g.permit = some (p, state)) :
    (next g e r).permit = some (p, state) ∨ ∃ i, l = .resume t i ∧ abandons i = true ∧
      ((∃ n, s.At t (.semaphore (.acquire p n))) ∨
        ∃ paymentId, s.At t (.provider (.finishPayment p paymentId))) := by
  have reached := h.reached
  cases g with
  | permitted q st =>
    cases hp
    obtain rfl | ⟨a, rfl⟩ | ⟨q', rfl⟩ | ⟨n, rfl⟩ | ⟨_, _, _, _, rfl⟩ := ok_permitted hok
    · exact .inl rfl
    · exact .inl rfl
    · exact .inl rfl
    · cases r with
      | ok _ => exact .inl rfl
      | error x => exact .inr ⟨_, (semaphore_error h).2, rfl, .inl ⟨n, reached⟩⟩
    · exact .inl rfl
  | calling q st =>
    cases hp
    obtain ⟨paymentId, rfl⟩ := ok_calling hok
    obtain ⟨hl, -, -⟩ := finishPayment_reply h
    cases r with
    | ok result => exact .inl rfl
    | error x =>
      obtain hl | ⟨hl, -⟩ := hl
      · cases x with
        | provider error => exact .inl rfl
        | _ => exact .inr ⟨_, hl, rfl, .inr ⟨paymentId, reached⟩⟩
      · exact .inr ⟨_, hl, rfl, .inr ⟨paymentId, reached⟩⟩
  | returned q st =>
    obtain ⟨q', n, rfl⟩ | rfl := ok_returned hok
    · exact .inl hp
    · exact absurd rfl (he _)
  | failed q st =>
    obtain ⟨q', n, rfl⟩ | rfl | ⟨a, rfl⟩ | rfl := ok_failed hok
    · exact .inl hp
    · exact .inl hp
    · exact .inl hp
    · exact absurd rfl (he _)
  | _ => cases hp

theorem accounted_other (meets : Recorded s l)
    (base : Inv s.world s.running (discipline.statuses s))
    (accounted : Accounted s.world (discipline.statuses s))
    (ht : discipline.statuses s t = some ⟨c, g, false⟩) (hok : ok g e)
    (h : Delivered (system cfg profile) s l t e (.reply r w)) (he : ∀ c, e ≠ .circuit c)
    (b : Bool) :
    Accounted w (Function.update (discipline.statuses s) t (some ⟨c, next g e r, b⟩)) := by
  intro p hs hp
  have touches := reply_touches h
  have same : w.circuit p = s.world.circuit p := congrFun (touches.circuits he) p
  rw [same] at hs hp
  obtain ⟨u, x, hu, hx, current⟩ := accounted p hs hp
  have current' : overtaken u p w.log = false := by
    obtain hl | ⟨y, hy, hl⟩ := touches.log he
    · rwa [hl]
    · rwa [hl, overtaken_other hy]
  by_cases hut : u = t
  · subst u
    obtain rfl := Option.some.inj (ht.symm.trans hu)
    obtain kept | ⟨i, hl, hi, reached⟩ := permit_kept h hok he hx
    · exact ⟨t, _, Function.update_self .., kept, current'⟩
    · exact absurd ⟨hs, (base.standing hu hx).granted, current⟩ (meets t i p hl hi reached)
  · exact ⟨u, x, by rwa [Function.update_of_ne hut], hx, current'⟩

theorem idle_permit (state : CircuitState) : Stage.idle.permit ≠ some (p, state) := nofun

/-- What happens at the circuit of one provider leaves the probes of the others alone. -/
theorem accounted_elsewhere (accounted : Accounted s.world (discipline.statuses s))
    (ht : discipline.statuses s t = some ⟨c, g, false⟩) {q : Provider} (hpq : p ≠ q)
    (hg : ∀ state, g.permit ≠ some (p, state)) (a : CircuitBreaker) (u : Status Call Stage)
    (hs : ((s.world.moveCircuit t q a).circuit p).state = .halfOpen)
    (hp : 0 < ((s.world.moveCircuit t q a).circuit p).probes) :
    ∃ v x, v ≠ t ∧ Function.update (discipline.statuses s) t (some u) v = some x ∧
      x.phase.permit = some (p, .halfOpen) ∧
      overtaken v p (s.world.moveCircuit t q a).log = false := by
  rw [circuit_moveCircuit, if_neg hpq] at hs hp
  obtain ⟨v, x, hv, hx, current⟩ := accounted p hs hp
  have hvt : v ≠ t := by
    rintro rfl
    obtain rfl := Option.some.inj (ht.symm.trans hv)
    exact hg _ hx
  refine ⟨v, x, hvt, by rwa [Function.update_of_ne hvt], hx, ?_⟩
  exact (overtaken_moveCircuit _ _).mpr ⟨current, fun hq => hpq hq.1.symm⟩

theorem accounted_allowRequest (accounted : Accounted s.world (discipline.statuses s))
    (ht : discipline.statuses s t = some ⟨c, .idle, false⟩) {q : Provider}
    {r : (Effect.circuit (.allowRequest q)).Reply}
    (h : Delivered (system cfg profile) s l t (.circuit (.allowRequest q)) (.reply r w))
    (b : Bool) : Accounted w (Function.update (discipline.statuses s) t
      (some ⟨c, next .idle (.circuit (.allowRequest q)) r, b⟩)) := by
  obtain ⟨now, -, -, rfl, rfl⟩ := allowRequest_reply h
  intro p
  cases granted : ((s.world.circuit q).allowRequest now).1 with
  | true =>
    rw [if_pos rfl]
    intro hs hp
    by_cases hpq : p = q
    · subst p
      have hs' : ((s.world.circuit q).allowRequest now).2.state = .halfOpen := by
        have := circuit_moveCircuit (t := t) (p := q) s.world
          ((s.world.circuit q).allowRequest now).2 q
        rw [if_pos rfl] at this
        exact this ▸ hs
      exact ⟨t, _, Function.update_self .., by simp [next, Stage.permit, hs'], overtaken_self _⟩
    · obtain ⟨v, x, hvt, hv, hx, current⟩ := accounted_elsewhere accounted ht hpq idle_permit _ _ hs hp
      exact ⟨v, x, hv, hx, (overtaken_permitted (fun hh => hvt hh.1.symm) _).trans current⟩
  | false =>
    rw [if_neg Bool.false_ne_true]
    intro hs hp
    by_cases hpq : p = q
    · subst p
      rw [circuit_moveCircuit, if_pos rfl, (CircuitBreaker.allowRequest_refused granted).1] at hs hp
      obtain ⟨v, x, hv, hx, current⟩ := accounted q hs hp
      have hvt : v ≠ t := by
        rintro rfl
        obtain rfl := Option.some.inj (ht.symm.trans hv)
        cases hx
      refine ⟨v, x, by rwa [Function.update_of_ne hvt], hx, ?_⟩
      refine (overtaken_moveCircuit _ _).mpr ⟨current, fun hq => hq.2.2 ?_⟩
      rw [(CircuitBreaker.allowRequest_refused granted).1]
    · obtain ⟨v, x, -, hv, hx, current⟩ := accounted_elsewhere accounted ht hpq idle_permit _ _ hs hp
      exact ⟨v, x, hv, hx, current⟩

theorem accounted_circuit (accounted : Accounted s.world (discipline.statuses s))
    (ht : discipline.statuses s t = some ⟨c, g, false⟩) {a : CircuitEffect}
    {r : (Effect.circuit a).Reply} (hok : ok g (.circuit a))
    (h : Delivered (system cfg profile) s l t (.circuit a) (.reply r w)) (b : Bool) :
    Accounted w (Function.update (discipline.statuses s) t
      (some ⟨c, next g (.circuit a) r, b⟩)) := by
  cases a with
  | allowRequest q =>
    cases g with
    | idle => exact accounted_allowRequest accounted ht h b
    | _ => exact hok.elim
  | recordSuccess q =>
    obtain ⟨-, -, rfl⟩ := recordSuccess_reply h
    intro p hs hp
    by_cases hpq : p = q
    · rw [circuit_moveCircuit, if_pos hpq] at hs
      cases hs
    · have hg : ∀ state, g.permit ≠ some (p, state) := by
        rintro state hg
        cases g with
        | returned q' state' => cases hg; exact hpq hok.symm
        | recovering q' => cases hg
        | _ => exact hok.elim
      obtain ⟨v, x, -, hv, hx, current⟩ := accounted_elsewhere accounted ht hpq hg _ _ hs hp
      exact ⟨v, x, hv, hx, current⟩
  | recordFailure q =>
    obtain ⟨now, -, -, -, rfl⟩ := recordFailure_reply h
    intro p hs hp
    by_cases hpq : p = q
    · rw [circuit_moveCircuit, if_pos hpq] at hs
      obtain ho | ⟨ho, hn⟩ := CircuitBreaker.recordFailure_state (s.world.circuit q) now
      · rw [ho] at hs; cases hs
      · rw [ho] at hs; exact absurd hs hn
    · have hg : ∀ state, g.permit ≠ some (p, state) := by
        rintro state hg
        cases g with
        | failed q' state' => cases hg; exact hpq hok.symm
        | _ => exact hok.elim
      obtain ⟨v, x, -, hv, hx, current⟩ := accounted_elsewhere accounted ht hpq hg _ _ hs hp
      exact ⟨v, x, hv, hx, current⟩

end Step

theorem accounted_extends (cfg : Config) (profile : Profile) :
    Extends (system cfg profile) Recorded discipline Inv fun w _ st => Accounted w st where
  call := fun {s t c b v} _ accounted new hg p hs hp => by
    obtain ⟨u, x, hu, hx, current⟩ := accounted p hs hp
    have hut : u ≠ t := by
      rintro rfl
      cases new.symm.trans hu
    exact ⟨u, x, by rwa [Function.update_of_ne hut], hx, current⟩
  reply := fun {s l t c g e r w} meets base accounted ht hok h b v hg _ => by
    obtain ⟨a, rfl⟩ | he := not_circuit_or e
    · exact accounted_circuit accounted ht hok h b
    · exact accounted_other meets base accounted ht hok h he b
  wait := fun {s l t c g e w} _ base accounted ht hok h p hs hp => by
    obtain ⟨a, rfl⟩ | he := not_circuit_or e
    · exact absurd h circuit_never_waits
    · have touches := wait_touches h
      have same : w.circuit p = s.world.circuit p := congrFun (touches.circuits he) p
      rw [same] at hs hp
      obtain ⟨u, x, hu, hx, current⟩ := accounted p hs hp
      refine ⟨u, x, hu, hx, ?_⟩
      obtain hl | ⟨y, hy, hl⟩ := touches.log he
      · rwa [hl]
      · rwa [hl, overtaken_other hy]
  outside := fun {s a w} _ accounted moved => by
    cases a with
    | setProviderConcurrency provider limit =>
      cases moved
      exact accounted
    | tick elapsed =>
      obtain ⟨_, -, rfl⟩ := Option.map_eq_some_iff.mp moved
      exact accounted

/-- Once its cooldown has passed, a circuit grants a permit whenever no call is under way, in a
run in which no probe is abandoned. -/
theorem never_wedged (cfg : Config) (profile : Profile) {circuit : CircuitBreaker}
    (fresh : circuit.Fresh) (concurrency : List (Provider × ℕ)) {s : ServiceState}
    (h : Reaches (system cfg profile) Recorded (.empty (.initial circuit concurrency)) s)
    (idle : s.Idle) (p : Provider) {now : Seconds}
    (cooled : (s.world.circuit p).state ≠ .closed →
      (s.world.circuit p).cooldownSeconds ≤ now - (s.world.circuit p).openedAt) :
    ((s.world.circuit p).allowRequest now).1 = true := by
  have first : Inv (.initial circuit concurrency) none (fun _ => none) ∧
      Accounted (.initial circuit concurrency) (fun _ => none) := by
    refine ⟨⟨nofun, nofun⟩, fun p hs => ?_⟩
    rw [World.initial_circuit, fresh.1] at hs
    cases hs
  obtain ⟨kept, -, accounted⟩ :=
    ((accounted_extends cfg profile).maintains (maintains cfg profile) fun _ _ _ => trivial).reaches_empty first h
  cases hs : (s.world.circuit p).state with
  | closed => rw [CircuitBreaker.allowRequest_closed hs]
  | opened =>
    have := cooled (by simp [hs])
    rw [CircuitBreaker.allowRequest_opened hs, if_neg (not_lt.mpr this)]
  | halfOpen =>
    have hn : ¬ 0 < (s.world.circuit p).probes := by
      intro hp
      obtain ⟨t, u, hu, hx, -⟩ := accounted p hs hp
      obtain ⟨T, task, rfl⟩ := discipline.statuses_some hu
      obtain ⟨_, hpost⟩ := kept.ended task (idle t T task)
      replace hpost : discipline.phase T = .idle := hpost
      rw [show (discipline.status T).phase = discipline.phase T from rfl, hpost] at hx
      cases hx
    have := (s.world.circuit p).probeLimit_pos
    rw [CircuitBreaker.allowRequest_halfOpen hs, if_neg (by omega)]

/-- A payment opens the circuit, and the probe after the cooldown fails too. -/
def probedRun : List ServiceLabel :=
  failedRun 0 0 1 ++ create 1 31 (card "b") 1 ++ ask 1 31 ++ start 1 ++ raises 1 unavailable ++
  recordFailure 1 32 ++ event 1 32 ++ [.enter 1 .go, .enter 1 .go, .enter 1 (.at 32)] ++
  finish 1 32

/-- An attempt ends without an outcome that is recorded. -/
def abandoning : ServiceLabel → Bool
  | .resume _ i => abandons i
  | _ => false

theorem never_wedged_probed : ∃ s : ServiceState, s.Idle ∧
    .permitted 1 "stripe" .halfOpen ∈ s.world.log ∧
    (s.world.circuit "stripe").state = .opened ∧
    ((s.world.circuit "stripe").allowRequest 62).1 = true := by
  have h : ∃ s ∈ run (system (service ["stripe"] 1) {}) probedRun (.empty (.initial fragile [])),
      (∀ t ∈ called probedRun, s.ended t = true) ∧
      .permitted 1 "stripe" .halfOpen ∈ s.world.log ∧
      (s.world.circuit "stripe").state = .opened ∧
      (s.world.circuit "stripe").cooldownSeconds ≤ 62 - (s.world.circuit "stripe").openedAt := by
    decide +kernel
  obtain ⟨s, moved, ended, probed, opened, cooled⟩ := h
  have recorded : ∀ l ∈ probedRun, abandoning l = false := by decide
  have meets : ∀ l ∈ probedRun, ∀ s, Recorded s l := by
    rintro l hl s t i p rfl abandoned
    cases (recorded _ hl).symm.trans abandoned
  have idle : s.Idle := run_idle _ moved ended
  exact ⟨s, idle, probed, opened, never_wedged _ _ ⟨rfl, rfl, rfl, rfl⟩ _
    (run_reaches _ (throughout_of_forall _ meets _) moved) idle _ fun _ => cooled⟩

/-- A probe ends in an exception that is no provider error. -/
def abandonedRun : List ServiceLabel :=
  failedRun 0 0 1 ++ create 1 31 (card "b") 1 ++ ask 1 31 ++ start 1 ++
  [.resume 1 (.outcome (.error (.other "TypeError"))), .enter 1 (.at 32), .enter 1 (.at 32),
    .enter 1 .go]

theorem abandoned_probe_wedges :
    ∃ s ∈ run (system (service ["stripe"] 1) {}) abandonedRun (.empty (.initial fragile [])),
    s.Idle ∧ (s.world.circuit "stripe").openedAt = 1 ∧
    ∀ now, ((s.world.circuit "stripe").allowRequest now).1 = false := by
  have h : ∃ s ∈ run (system (service ["stripe"] 1) {}) abandonedRun
      (.empty (.initial fragile [])), (∀ t ∈ called abandonedRun, s.ended t = true) ∧
      (s.world.circuit "stripe").openedAt = 1 ∧
      (s.world.circuit "stripe").state = .halfOpen ∧
      (s.world.circuit "stripe").probes ≥ (s.world.circuit "stripe").halfOpenProbeLimit := by
    decide +kernel
  obtain ⟨s, moved, ended, openedAt, halfOpen, probes⟩ := h
  refine ⟨s, moved, run_idle _ moved ended, openedAt, fun now => ?_⟩
  rw [CircuitBreaker.allowRequest_halfOpen halfOpen, if_pos probes]

end PySwitch.HalfOpenProbe
