import PySwitch.Recovery

namespace PySwitch.Declines

open Async CircuitHistory Permit Recovery Scenario

def Closed (s : ServiceState) : Prop := ∀ p, (s.world.circuit p).state = .closed

/-- How many provider errors in a row a provider has ended its last payments with. -/
def streak (p : Provider) : List Happening → ℕ
  | [] => 0
  | .paymentEnded _ q _ (.ok _) :: older => if q = p then 0 else streak p older
  | .paymentEnded _ q _ (.error (.provider _)) :: older =>
    if q = p then streak p older + 1 else streak p older
  | _ :: older => streak p older

/-- No provider has come to a streak as long as the threshold of its circuit. -/
def Spared (threshold : ℕ) (s : ServiceState) : Prop :=
  ∀ p, streak p s.world.log < threshold

/-- The providers that have ended a payment. -/
def enders : List Happening → List Provider :=
  List.filterMap fun
    | .paymentEnded _ q _ _ => some q
    | _ => none

/-- Calls are payments only. -/
def Paying : ServiceLabel → Prop
  | .call _ (.create _) => True
  | .call _ _ => False
  | _ => True

/-- Payments only, and providers that complete or decline them. -/
def Declining : ServiceLabel → Prop
  | .call _ (.create _) => True
  | .call _ _ => False
  | .resume _ (.outcome (.ok _)) => True
  | .resume _ (.outcome (.error (.provider error))) => isRetryable error = false
  | .resume _ (.outcome _) => False
  | .resume _ .cancel => False
  | _ => True

/-- A breaker with a threshold that is closed exactly while it counts fewer failures. -/
structure Counts (threshold : ℕ) (c : CircuitBreaker) : Prop where
  limit : c.failureThreshold = threshold
  closed : c.state = .closed ↔ c.consecutiveFailures < threshold

namespace Counts

variable {threshold : ℕ} {c : CircuitBreaker}

theorem allowRequest (h : Counts threshold c) (now : Seconds) :
    Counts threshold (c.allowRequest now).2 ∧
      (c.allowRequest now).2.consecutiveFailures = c.consecutiveFailures := by
  cases hg : (c.allowRequest now).1 with
  | false =>
    rw [(CircuitBreaker.allowRequest_refused hg).1]
    exact ⟨h, rfl⟩
  | true =>
    obtain ⟨-, he⟩ | ⟨hs, -, he⟩ | ⟨-, -, he⟩ := CircuitBreaker.allowRequest_granted hg
    · rw [he]
      exact ⟨h, rfl⟩
    · rw [he]
      refine ⟨⟨h.limit, iff_of_false (by simp) fun few => ?_⟩, rfl⟩
      cases hs.symm.trans (h.closed.mpr few)
    · rw [he]
      exact ⟨⟨h.limit, h.closed⟩, rfl⟩

theorem recordSuccess (h : Counts threshold c) : Counts threshold c.recordSuccess :=
  ⟨h.limit, iff_of_true rfl (h.limit ▸ c.threshold_pos)⟩

theorem recordFailure (h : Counts threshold c) (now : Seconds) :
    Counts threshold (c.recordFailure now) ∧
      (c.recordFailure now).consecutiveFailures = c.consecutiveFailures + 1 := by
  have limit := h.limit
  unfold CircuitBreaker.recordFailure
  dsimp only
  split
  · rename_i reached
    refine ⟨⟨limit, iff_of_false (by simp) fun few => ?_⟩, rfl⟩
    replace few : c.consecutiveFailures + 1 < threshold := few
    obtain half | enough := reached
    · cases half.symm.trans (h.closed.mpr (by omega))
    · omega
  · rename_i short
    have few := not_le.mp (not_or.mp short).2
    exact ⟨⟨limit, iff_of_true (h.closed.mpr (by omega)) (by dsimp only; omega)⟩, rfl⟩

end Counts

section Streak

variable {p : Provider} {w w' : World}

theorem same_circuit (same : w'.process.circuits = w.process.circuits) (p : Provider) :
    w'.circuit p = w.circuit p :=
  congrFun same p

theorem streak_absent {log : List Happening} (absent : p ∉ enders log) : streak p log = 0 := by
  induction log with
  | nil => rfl
  | cons x log ih =>
    cases x with
    | paymentEnded t q paymentId answer =>
      obtain ⟨hq, rest⟩ := not_or.mp (mt List.mem_cons.mpr absent)
      obtain (error | _) | result := answer <;> simp [streak, Ne.symm hq, ih rest]
    | _ => exact ih absent

theorem spared_iff {threshold : ℕ} {s : ServiceState} : Spared threshold s ↔
    0 < threshold ∧ ∀ p ∈ enders s.world.log, streak p s.world.log < threshold := by
  constructor
  · exact fun spared => ⟨(Nat.zero_le _).trans_lt (spared ""), fun p _ => spared p⟩
  · intro ⟨positive, short⟩ p
    by_cases ended : p ∈ enders s.world.log
    · exact short p ended
    · rw [streak_absent ended]
      exact positive

instance (threshold : ℕ) (s : ServiceState) : Decidable (Spared threshold s) :=
  decidable_of_iff _ spared_iff.symm

theorem streak_circuit {new : List Happening} (hn : ∀ x ∈ new, x.ofCircuit = true)
    (log : List Happening) : streak p (new ++ log) = streak p log := by
  induction new with
  | nil => rfl
  | cons x new ih =>
    rw [← ih (List.forall_mem_cons.mp hn).2]
    have hx := hn x (List.mem_cons_self ..)
    cases x with
    | permitted => rfl
    | transition => rfl
    | _ => cases hx

/-- Only the end of a provider call changes a streak. -/
theorem streak_touches {e : Effect}
    (payment : ∀ q paymentId, e ≠ .provider (.finishPayment q paymentId))
    (h : e.Touches w w') : streak p w'.log = streak p w.log := by
  cases e with
  | circuit c =>
    obtain ⟨_, new, hn, rfl⟩ := h
    exact streak_circuit hn _
  | provider e =>
    obtain rfl | ⟨x, hx, rfl⟩ := h
    · rfl
    · cases hx with
      | started => rfl
      | ended => exact absurd rfl (payment _ _)
      | refunded => rfl
  | host e => obtain rfl | ⟨-, rfl⟩ := h <;> rfl
  | stats e => obtain ⟨_, _, rfl⟩ := h; rfl
  | _ => obtain ⟨_, rfl⟩ := h; rfl

/-- What a circuit counts once the outcome that a call holds is recorded. -/
def counted (p : Provider) (failures : ℕ) : Stage → ℕ
  | .returned q _ => if q = p then 0 else failures
  | .failed q _ => if q = p then failures + 1 else failures
  | _ => failures

theorem counted_of_not_pending {g : Stage} (h : ¬ g.pending) (n : ℕ) : counted p n g = n := by
  cases g with
  | returned => exact absurd trivial h
  | failed => exact absurd trivial h
  | _ => rfl

theorem counted_next {g : Stage} {e : Effect} {r : e.Reply} (circuit : ∀ c, e ≠ .circuit c)
    (payment : ∀ q paymentId, e ≠ .provider (.finishPayment q paymentId)) (n : ℕ) :
    counted p n (next g e r) = counted p n g := by
  unfold next
  split <;> first
    | rfl
    | exact absurd rfl (circuit _)
    | exact absurd rfl (payment _ _)

theorem circuit_settles {g : Stage} {a : CircuitEffect} {r : (Effect.circuit a).Reply}
    (hok : ok g (.circuit a)) : ¬ (next g (.circuit a) r).pending := by
  cases a with
  | allowRequest q =>
    cases g with
    | idle =>
      simp only [next]
      split <;> exact id
    | _ => exact hok.elim
  | recordSuccess q =>
    cases g with
    | returned => exact id
    | recovering => exact id
    | _ => exact hok.elim
  | recordFailure q =>
    cases g with
    | failed => exact id
    | _ => exact hok.elim

end Streak

/-- The circuits count the streaks of their providers, up to an outcome not recorded yet. -/
structure Tally (threshold : ℕ) (w : World) (running : Option Tid) (st : Statuses) : Prop where
  counts : ∀ p, Counts threshold (w.circuit p)
  under : ∀ {t u}, running = some t → st t = some u → ∀ p,
    streak p w.log = counted p (w.circuit p).consecutiveFailures u.phase
  between : running = none → ∀ p, streak p w.log = (w.circuit p).consecutiveFailures
  attended : ∀ {t u p}, st t = some u → u.phase ≠ .recovering p

section Step

variable {cfg : Config} {profile : Profile} {threshold : ℕ} {s : ServiceState}
  {l : ServiceLabel} {t : Tid} {c : Call} {g : Stage} {e : Effect} {r : e.Reply} {w : World}

theorem tally_before {a : Answer e.Reply World}
    (base : Inv s.world s.running (discipline.statuses s))
    (tally : Tally threshold s.world s.running (discipline.statuses s))
    (ht : discipline.statuses s t = some ⟨c, g, false⟩)
    (h : Delivered (system cfg profile) s l t e a) (p : Provider) :
    streak p s.world.log = counted p (s.world.circuit p).consecutiveFailures g := by
  cases running : s.running with
  | some u =>
    obtain rfl := h.running running
    exact tally.under running ht p
  | none =>
    have : ¬ g.pending := fun pending => by cases running.symm.trans (base.pending ht pending)
    rw [counted_of_not_pending this]
    exact tally.between running p

theorem streak_wait (h : Delivered (system cfg profile) s l t e (.wait w)) (p : Provider) :
    streak p w.log = streak p s.world.log := by
  by_cases payment : ∃ q paymentId, e = .provider (.finishPayment q paymentId)
  · obtain ⟨q, paymentId, rfl⟩ := payment
    rw [provider_wait h]
  · exact streak_touches (fun q paymentId he => payment ⟨q, paymentId, he⟩) (wait_touches h)

theorem counts_moveCircuit (counts : ∀ p, Counts threshold (w.circuit p)) {q : Provider}
    {c : CircuitBreaker} (moved : Counts threshold c) (p : Provider) :
    Counts threshold ((w.moveCircuit t q c).circuit p) := by
  rw [circuit_moveCircuit]
  split
  · exact moved
  · exact counts p

theorem counts_reply (counts : ∀ p, Counts threshold (s.world.circuit p))
    (h : Delivered (system cfg profile) s l t e (.reply r w)) (p : Provider) :
    Counts threshold (w.circuit p) := by
  obtain ⟨a, rfl⟩ | other := not_circuit_or e
  · cases a with
    | allowRequest q =>
      obtain ⟨now, -, -, -, rfl⟩ := allowRequest_reply h
      split
      · exact counts_moveCircuit counts ((counts q).allowRequest now).1 p
      · exact counts_moveCircuit counts ((counts q).allowRequest now).1 p
    | recordSuccess q =>
      obtain ⟨-, -, rfl⟩ := recordSuccess_reply h
      exact counts_moveCircuit counts (counts q).recordSuccess p
    | recordFailure q =>
      obtain ⟨now, -, -, -, rfl⟩ := recordFailure_reply h
      exact counts_moveCircuit counts ((counts q).recordFailure now).1 p
  · rw [same_circuit ((reply_touches h).circuits other)]
    exact counts p

/-- An outcome is recorded at the circuit of its own provider. -/
theorem circuit_counted {a : CircuitEffect} {r : (Effect.circuit a).Reply}
    (counts : ∀ p, Counts threshold (s.world.circuit p)) (hok : ok g (.circuit a))
    (attended : ∀ q, g ≠ .recovering q)
    (h : Delivered (system cfg profile) s l t (.circuit a) (.reply r w)) (p : Provider) :
    (w.circuit p).consecutiveFailures = counted p (s.world.circuit p).consecutiveFailures g := by
  cases a with
  | allowRequest q =>
    obtain ⟨now, -, -, -, rfl⟩ := allowRequest_reply h
    have same : ((s.world.moveCircuit t q ((s.world.circuit q).allowRequest now).2).circuit
        p).consecutiveFailures = (s.world.circuit p).consecutiveFailures := by
      rw [circuit_moveCircuit]
      split
      · subst p
        exact ((counts q).allowRequest now).2
      · rfl
    cases g with
    | idle =>
      split
      · exact same
      · exact same
    | _ => exact hok.elim
  | recordSuccess q =>
    obtain ⟨-, -, rfl⟩ := recordSuccess_reply h
    cases g with
    | returned q' state =>
      obtain rfl : q = q' := hok
      simp only [circuit_moveCircuit, counted, eq_comm]
      split <;> rfl
    | recovering q' => exact absurd rfl (attended q')
    | _ => exact hok.elim
  | recordFailure q =>
    obtain ⟨now, -, -, -, rfl⟩ := recordFailure_reply h
    cases g with
    | failed q' state =>
      obtain rfl : q = q' := hok
      simp only [circuit_moveCircuit, counted, eq_comm]
      split
      · subst p
        exact ((counts q).recordFailure now).2.symm
      · rfl
    | _ => exact hok.elim

/-- The end of a provider call lengthens or ends a streak, and its recording makes the circuit
count that. -/
theorem tally_reply (counts : ∀ p, Counts threshold (s.world.circuit p)) (hok : ok g e)
    (attended : ∀ q, g ≠ .recovering q) (p : Provider)
    (before : streak p s.world.log = counted p (s.world.circuit p).consecutiveFailures g)
    (h : Delivered (system cfg profile) s l t e (.reply r w)) :
    streak p w.log = counted p (w.circuit p).consecutiveFailures (next g e r) := by
  by_cases payment : ∃ q paymentId, e = .provider (.finishPayment q paymentId)
  · obtain ⟨q, paymentId, rfl⟩ := payment
    obtain ⟨-, -, rfl⟩ := finishPayment_reply h
    cases g with
    | calling q' state =>
      obtain rfl : q = q' := hok
      replace before : streak p s.world.log = (s.world.circuit p).consecutiveFailures := before
      show streak p (.paymentEnded t q paymentId r :: s.world.log) =
        counted p (s.world.circuit p).consecutiveFailures _
      obtain (error | _) | result := r <;> simp [streak, next, counted, before]
    | _ => exact hok.elim
  · have payment : ∀ q paymentId, e ≠ .provider (.finishPayment q paymentId) :=
      fun q paymentId he => payment ⟨q, paymentId, he⟩
    rw [streak_touches payment (reply_touches h), before]
    obtain ⟨a, rfl⟩ | other := not_circuit_or e
    · rw [counted_of_not_pending (circuit_settles hok), circuit_counted counts hok attended h]
    · rw [counted_next other payment, same_circuit ((reply_touches h).circuits other)]

end Step

theorem tally_extends (cfg : Config) (profile : Profile) (threshold : ℕ) :
    Extends (system cfg profile) (fun _ l => Paying l) discipline Inv (Tally threshold) where
  call := fun {s t c b v} meets tally new hg => by
    cases c with
    | create data =>
      exact {
        counts := tally.counts
        under := fun hv hu p => by
          obtain ⟨rfl, rfl⟩ | ⟨hne, hu⟩ := update_cases hu
          · exact tally.between rfl p
          · cases hg with
            | on => exact absurd (Option.some.inj hv).symm hne
            | ended => cases hv
        between := fun _ => tally.between rfl
        attended := fun hu => by
          obtain ⟨rfl, rfl⟩ | ⟨-, hu⟩ := update_cases hu
          · exact Stage.noConfusion
          · exact tally.attended hu }
    | _ => exact meets.elim
  reply := fun {s l t c g e r w} _ base tally ht hok h b v hg _ => by
    have reckoned := fun p => tally_reply tally.counts hok (fun q => tally.attended ht) p
      (tally_before base tally ht h p) h
    exact {
      counts := counts_reply tally.counts h
      under := fun hv hu p => by
        obtain ⟨rfl, rfl⟩ | ⟨hne, hu⟩ := update_cases hu
        · exact reckoned p
        · cases hg with
          | on => exact absurd (Option.some.inj hv).symm hne
          | ended => cases hv
      between := fun hv p => by
        cases hg with
        | on => cases hv
        | ended post =>
          have idle : next g e r = .idle := post
          have := reckoned p
          rwa [idle] at this
      attended := fun hu hp => by
        obtain ⟨rfl, rfl⟩ | ⟨-, hu⟩ := update_cases hu
        · exact tally.attended ht (next_recovering hok hp)
        · exact tally.attended hu hp }
  wait := fun {s l t c g e w} _ base tally ht hok h => by
    have circuit : ∀ a, e ≠ .circuit a := by
      rintro a rfl
      exact circuit_never_waits h
    have circuits := same_circuit ((wait_touches h).circuits circuit)
    have settled : ¬ g.pending := wait_not_pending h base ht hok ht
    exact {
      counts := fun p => circuits p ▸ tally.counts p
      under := nofun
      between := fun _ p => by
        rw [streak_wait h, circuits, tally_before base tally ht h p, counted_of_not_pending settled]
      attended := tally.attended }
  outside := fun {s a w} _ tally moved => by
    cases a with
    | setProviderConcurrency provider limit =>
      cases moved
      exact ⟨tally.counts, nofun, tally.between, tally.attended⟩
    | tick elapsed =>
      obtain ⟨_, -, rfl⟩ := Option.map_eq_some_iff.mp moved
      exact ⟨tally.counts, nofun, tally.between, tally.attended⟩

/-- While the streaks are short, a closed circuit is not opened. -/
theorem closed_extends (cfg : Config) (profile : Profile) (threshold : ℕ) :
    Extends (system cfg profile) (fun s l => Paying l ∧ Spared threshold s) discipline
      (fun w v st => Inv w v st ∧ Tally threshold w v st)
      (fun w _ _ => ∀ p, (w.circuit p).state = .closed) where
  call := fun _ closed _ _ => closed
  reply := fun {s l t c g e r w} meets base closed ht hok h b v hg after p => by
    obtain ⟨a, rfl⟩ | other := not_circuit_or e
    · rw [(after.2.counts p).closed,
        circuit_counted base.2.counts hok (fun q => base.2.attended ht) h,
        ← tally_before base.1 base.2 ht h]
      exact meets.2 p
    · rw [same_circuit ((reply_touches h).circuits other)]
      exact closed p
  wait := fun {s l t c g e w} _ _ closed _ _ h p => by
    have circuit : ∀ a, e ≠ .circuit a := by
      rintro a rfl
      exact circuit_never_waits h
    rw [same_circuit ((wait_touches h).circuits circuit)]
    exact closed p
  outside := fun _ closed moved p => by
    rw [same_circuit (outside_frame moved).circuits]
    exact closed p

/-- A provider ends a payment between the steps of the service only. -/
theorem streak_running {cfg : Config} {profile : Profile} {s s' : ServiceState}
    {l : ServiceLabel} (busy : s.running ≠ none)
    (moved : step (system cfg profile) l s = some s') (p : Provider) :
    streak p s'.world.log = streak p s.world.log := by
  cases step_moves _ moved with
  | call idle new => exact absurd idle busy
  | reply task code delivered =>
    apply streak_touches _ (reply_touches delivered)
    rintro q paymentId rfl
    exact busy (finishPayment_reply delivered).2.1
  | wait task code delivered => exact streak_wait delivered p
  | outside idle outside => exact absurd idle busy

section Run

variable {cfg : Config} {profile : Profile} {circuit : CircuitBreaker}
  {concurrency : List (Provider × ℕ)} {ls : List ServiceLabel} {s : ServiceState}

theorem tally_initial (fresh : circuit.Fresh) :
    Inv (.initial circuit concurrency) none (fun _ => none) ∧
    Tally circuit.failureThreshold (.initial circuit concurrency) none (fun _ => none) := by
  have same := World.initial_circuit circuit concurrency
  have few : circuit.consecutiveFailures < circuit.failureThreshold := by
    rw [fresh.2.1]
    exact circuit.threshold_pos
  refine ⟨⟨nofun, nofun⟩, ⟨fun p => ?_, nofun, fun _ p => ?_, nofun⟩⟩
  · rw [same]
    exact ⟨rfl, iff_of_true fresh.1 few⟩
  · rw [same, fresh.2.1]
    rfl

/-- Between the steps of the service a circuit is closed exactly while the streak of its
provider is short. -/
theorem closed_iff_spared (fresh : circuit.Fresh) (paying : ∀ l ∈ ls, Paying l)
    (h : run (system cfg profile) ls (.empty (.initial circuit concurrency)) = some s)
    (idle : s.running = none) : Closed s ↔ Spared circuit.failureThreshold s := by
  have reaches := run_reaches _ (throughout_of_forall _ (fun l hl _ => paying l hl) _) h
  obtain ⟨-, -, tally⟩ := ((tally_extends cfg profile circuit.failureThreshold).maintains
    (maintains cfg profile) fun _ _ _ => trivial).reaches_empty (tally_initial fresh) reaches
  apply forall_congr'
  intro p
  rw [tally.between idle, (tally.counts p).closed]

/-- Short streaks so far, and no circuit has been opened. -/
theorem closed_of_spared (fresh : circuit.Fresh) (paying : ∀ l ∈ ls, Paying l)
    (h : run (system cfg profile) ls (.empty (.initial circuit concurrency)) = some s)
    (spared : Throughout (system cfg profile) (fun s _ => Spared circuit.failureThreshold s) ls
      (.empty (.initial circuit concurrency))) : Closed s := by
  have meets : Throughout (system cfg profile)
      (fun s l => Paying l ∧ Spared circuit.failureThreshold s) ls
      (.empty (.initial circuit concurrency)) :=
    throughout_of_before _ fun before l v shorter hv =>
      ⟨paying l (shorter.subset (by simp)), spared.before shorter hv⟩
  refine (((closed_extends cfg profile _).maintains ((tally_extends cfg profile _).maintains
    (maintains cfg profile) fun _ _ _ => trivial) fun _ _ meets => meets.1).reaches_empty
    ⟨tally_initial fresh, fun p => ?_⟩ (run_reaches _ meets h)).2.2
  rw [World.initial_circuit]
  exact fresh.1

/-- A streak that is too long still is when the call that met with it suspends or ends, and then
the circuit is open. -/
theorem spared_of_closed (fresh : circuit.Fresh) (paying : ∀ l ∈ ls, Paying l)
    (h : run (system cfg profile) ls (.empty (.initial circuit concurrency)) = some s)
    (idle : s.running = none) (closed : ∀ n u, run (system cfg profile) (ls.take n)
      (.empty (.initial circuit concurrency)) = some u → Closed u) {n : ℕ} {u : ServiceState}
    (hu : run (system cfg profile) (ls.take n) (.empty (.initial circuit concurrency)) = some u) :
    Spared circuit.failureThreshold u := by
  intro p
  by_contra long
  have rest : run (system cfg profile) (ls.drop n) u = some s := by
    rw [← List.take_append_drop n ls, run_append, hu] at h
    exact h
  obtain ⟨m, v, hv, settled, long⟩ := run_settles _
    (P := fun v => ¬ streak p v.world.log < circuit.failureThreshold)
    (fun _ _ _ busy long moved => by rwa [streak_running busy moved]) rest idle long
  have before : run (system cfg profile) (ls.take (n + m))
      (.empty (.initial circuit concurrency)) = some v := by
    rw [List.take_add, run_append, hu]
    exact hv
  exact long ((closed_iff_spared fresh (fun l hl => paying l (List.mem_of_mem_take hl)) before
    settled).mp (closed (n + m) v before) p)

end Run

/-- In a run of payments all circuits stay closed if no provider ends as many of them in a row
with an error as the threshold of its circuit says. In a run that leaves no call in the middle of
a step they stay closed only then. -/
theorem circuits_closed_iff (cfg : Config) (profile : Profile) {circuit : CircuitBreaker}
    (fresh : circuit.Fresh) (concurrency : List (Provider × ℕ)) {ls : List ServiceLabel}
    (paying : ∀ l ∈ ls, Paying l) {s : ServiceState}
    (h : run (system cfg profile) ls (.empty (.initial circuit concurrency)) = some s) :
    (Throughout (system cfg profile) (fun s _ => Spared circuit.failureThreshold s) ls
        (.empty (.initial circuit concurrency)) →
      ∀ n u, run (system cfg profile) (ls.take n)
        (.empty (.initial circuit concurrency)) = some u → Closed u) ∧
    (s.running = none →
      (∀ n u, run (system cfg profile) (ls.take n)
        (.empty (.initial circuit concurrency)) = some u → Closed u) →
      Throughout (system cfg profile) (fun s _ => Spared circuit.failureThreshold s) ls
        (.empty (.initial circuit concurrency))) := by
  constructor
  · intro spared n u hu
    apply closed_of_spared fresh (fun l hl => paying l (List.mem_of_mem_take hl)) hu
    exact throughout_of_before _ fun before l v shorter hv =>
      spared.before (shorter.trans (List.take_prefix n ls)) hv
  · intro idle closed
    refine throughout_of_before _ fun before l v shorter hv => ?_
    have taken := List.prefix_iff_eq_take.mp ((List.prefix_append before [l]).trans shorter)
    exact spared_of_closed fresh paying h idle closed (taken ▸ hv)

section Instances

def declined : ProviderError := { code := "PAYMENT_DECLINED", message := "Payment declined" }

/-- A circuit that opens at the third failure. -/
def steady : CircuitBreaker :=
  { fragile with
    failureThreshold := 3
    threshold_pos := by decide }

/-- A payment up to the failure that its decline is recorded as. -/
def declining (t : Tid) (idempotencyKey : String) : List ServiceLabel :=
  create t 0 (card idempotencyKey) 1 ++ ask t 0 ++ start t ++ raises t declined ++ recordFailure t 0

/-- The payment is saved as failed. -/
def failing (t : Tid) : List ServiceLabel := .enter t (.at 0) :: finish t 0

instance (l : ServiceLabel) : Decidable (Paying l) := by
  unfold Paying
  split <;> infer_instance

instance (l : ServiceLabel) : Decidable (Declining l) := by
  unfold Declining
  split <;> infer_instance

/-- Two declines, a payment that succeeds, and two more declines. -/
def scatteredDeclines : List ServiceLabel :=
  declining 0 "a" ++ failing 0 ++ declining 1 "b" ++ failing 1 ++ paidRun 2 0 "c" ++
  declining 3 "d" ++ failing 3 ++ declining 4 "e" ++ failing 4

theorem scattered_declines_closed :
    (∃ s ∈ run (system (service ["stripe"] 1) {}) scatteredDeclines
      (.empty (.initial steady [])), s.running = none) ∧
    ∀ n u, run (system (service ["stripe"] 1) {}) (scatteredDeclines.take n)
      (.empty (.initial steady [])) = some u → Closed u := by
  have ends : ∃ s ∈ run (system (service ["stripe"] 1) {}) scatteredDeclines
      (.empty (.initial steady [])), s.running = none := by
    decide +kernel
  obtain ⟨s, h, idle⟩ := ends
  have paying : ∀ l ∈ scatteredDeclines, Paying l := by decide +kernel
  have spared : Throughout (system (service ["stripe"] 1) {}) (fun s _ => Spared 3 s)
      scatteredDeclines (.empty (.initial steady [])) := by
    decide +kernel
  exact ⟨⟨s, h, idle⟩, (circuits_closed_iff _ _ ⟨rfl, rfl, rfl, rfl⟩ [] paying h).1 spared⟩

def threeDeclines : List ServiceLabel :=
  declining 0 "a" ++ failing 0 ++ declining 1 "b" ++ failing 1 ++ declining 2 "c"

theorem three_declines_open :
    (∀ l ∈ threeDeclines, Declining l) ∧
    ∃ s ∈ run (system (service ["stripe"] 1) {}) threeDeclines (.empty (.initial steady [])),
      (s.world.circuit "stripe").state = .opened := by
  decide +kernel

end Instances

end PySwitch.Declines
