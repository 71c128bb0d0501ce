import PySwitch.Machine
import PySwitch.ServiceFootprint

namespace PySwitch.Retries

open Async Program Service

/-- The payment of a call, the providers it was sent to, how many calls the visit to the latest of
them has made, and the provider for which a retry is counted that is not made yet. -/
structure Stage where
  payment : Option Uuid
  sent : List Provider
  attempts : ℕ
  due : Option Provider

namespace Stage

def start : Stage := ⟨none, [], 0, none⟩

def draw (g : Stage) (id : Uuid) : Stage := { g with payment := some (g.payment.getD id) }

def send (g : Stage) (p : Provider) : Stage :=
  if p ∈ g.sent then { g with attempts := g.attempts + 1, due := none }
  else { g with sent := p :: g.sent, attempts := 1, due := none }

def owe (g : Stage) (p : Provider) : Stage := { g with due := some p }

end Stage

def ok (g : Stage) : Effect → Prop
  | .provider (.startPayment p id _ _ _) => g.payment = some id ∧
      (g.due = none ∧ p ∉ g.sent ∨ g.due = some p ∧ p ∈ g.sent)
  | .stats (.countRetry _) => g.due = none
  | _ => True

/-- What can be met when the last call allowed, and any call whose retry has a delay too large for
a `float`, is no retryable error, and nothing comes between a retry that is counted and its call. -/
def may (policy : RetryPolicy) (g : Stage) : (e : Effect) → e.Reply → Prop
  | .provider (.finishPayment _ _), .error (.provider error) =>
    isRetryable error = true → g.attempts ≠ policy.maxAttempts ∧ g.attempts ≤ 1024
  | .circuit (.allowRequest _), r => g.due ≠ none → r.1 = true
  | .host (.sleep _), .error _ => g.due = none
  | .semaphore (.acquire _ _), .error x => x = .cancelled ∧ g.due = none
  | .store (.append _), .error x => g.due = none ∧ ∀ error, x ≠ .provider error
  | _, _ => True

def next (g : Stage) : (e : Effect) → e.Reply → Stage
  | .host .uuid4, id => g.draw id
  | .provider (.startPayment p _ _ _ _), _ => g.send p
  | .stats (.countRetry p), _ => g.owe p
  | _, _ => g

def protocol (policy : RetryPolicy) : Protocol Effect Effect.Reply Stage := ⟨ok, may policy, next⟩

section Visit

variable {cfg : Config} {p : Provider} {id : Uuid} {earlier : List Provider} {n : ℕ} {s : Locals}
  {g : Stage}

/-- The payment is with nobody and was sent to the earlier providers at most. -/
structure Resting (id : Uuid) (earlier : List Provider) (g : Stage) : Prop where
  payment : g.payment = some id
  sent : ∀ q ∈ g.sent, q ∈ earlier
  due : g.due = none

/-- A visit has made `n` calls and comes to the next one. -/
structure Asking (id : Uuid) (earlier : List Provider) (p : Provider) (n : ℕ) (g : Stage) :
    Prop where
  payment : g.payment = some id
  sent : ∀ q ∈ g.sent, q ∈ p :: earlier
  first : n = 0 → g.due = none ∧ p ∉ g.sent
  again : n ≠ 0 → g.due = some p ∧ p ∈ g.sent ∧ g.attempts = n

/-- A visit has made `n` calls, the last of which is not over or has just raised. -/
structure Calling (id : Uuid) (earlier : List Provider) (p : Provider) (n : ℕ) (g : Stage) : Prop
    extends Resting id (p :: earlier) g where
  here : p ∈ g.sent
  attempts : g.attempts = n

theorem Asking.rest (h : Asking id earlier p 0 g) : Resting id (p :: earlier) g :=
  ⟨h.payment, h.sent, (h.first rfl).1⟩

theorem Asking.idle (h : Asking id earlier p n g) (due : g.due = none) : n = 0 := by
  by_contra some
  cases (h.again some).1.symm.trans due

theorem Asking.send (h : Asking id earlier p n g) : Calling id earlier p (n + 1) (g.send p) := by
  by_cases zero : n = 0
  · subst zero
    have new := (h.first rfl).2
    rw [Stage.send, if_neg new]
    refine ⟨⟨h.payment, ?_, rfl⟩, List.mem_cons_self .., rfl⟩
    intro q hq
    obtain rfl | hq := List.mem_cons.mp hq
    · exact List.mem_cons_self ..
    · exact h.sent q hq
  · obtain ⟨-, here, attempts⟩ := h.again zero
    rw [Stage.send, if_pos here]
    exact ⟨⟨h.payment, h.sent, rfl⟩, here, congrArg (· + 1) attempts⟩

theorem Asking.sends (h : Asking id earlier p n g) :
    g.due = none ∧ p ∉ g.sent ∨ g.due = some p ∧ p ∈ g.sent := by
  by_cases zero : n = 0
  · exact .inl (h.first zero)
  · exact .inr ⟨(h.again zero).1, (h.again zero).2.1⟩

theorem Calling.owe (h : Calling id earlier p (n + 1) g) :
    Asking id earlier p (n + 1) (g.owe p) :=
  ⟨h.payment, h.sent, nofun, fun _ => ⟨rfl, h.here, h.attempts⟩⟩

theorem draw_known (h : g.payment = some id) (other : Uuid) : g.draw other = g := by
  rw [Stage.draw, h, Option.getD_some, ← h]

theorem recording_wp (known : g.payment = some id) (previous current : CircuitState) :
    wp (protocol cfg.retryPolicy) (recordCircuitTransition cfg p previous current)
      (fun r _ g' => g' = g ∧
        ∀ x, r = .error x → g.due = none ∧ ∀ error, x ≠ .provider error) s g := by
  simp only [recordCircuitTransition, newEvent, uuid4, now, perform, wp_onlyIf, wp_bind, wp_effect,
    orRaise_ok, wp_pure, wp_await]
  split
  · refine ⟨trivial, fun other _ => ?_⟩
    have same : (protocol cfg.retryPolicy).next g (.host .uuid4) other = g :=
      draw_known known other
    rw [same]
    refine ⟨trivial, fun _ _ => ⟨trivial, fun answer raised => ?_⟩⟩
    cases answer with
    | ok _ => exact ⟨rfl, nofun⟩
    | error x =>
      refine ⟨rfl, ?_⟩
      rintro y ⟨⟩
      exact raised
  · exact ⟨trivial, nofun⟩

/-- A retry is let through, and a visit that is turned away has made no call. -/
theorem allowProvider_wp (asking : Asking id earlier p n g) :
    wp (protocol cfg.retryPolicy) (allowProvider cfg p) (fun r _ g' => g' = g ∧
      (r = .ok false → n = 0) ∧
      ∀ x, r = .error x → g.due = none ∧ ∀ error, x ≠ .provider error) s g := by
  simp only [allowProvider, perform, wp_bind, wp_effect, orRaise_ok]
  refine ⟨trivial, ?_⟩
  rintro ⟨allowed, previous, current⟩ granted
  have turned : allowed = false → n = 0 := by
    intro refused
    apply asking.idle
    by_contra due
    cases refused.symm.trans (granted due)
  simp only [orRaise_ok, wp_onlyIf, wp_pure]
  split
  · apply wp_mono (recording_wp asking.payment previous current)
    rintro r s' g' ⟨rfl, raised⟩
    cases r with
    | ok _ => exact ⟨rfl, fun h => turned (Except.ok.inj h), nofun⟩
    | error x =>
      refine ⟨rfl, nofun, ?_⟩
      rintro y ⟨⟩
      exact raised x rfl
  · exact ⟨rfl, fun h => turned (Except.ok.inj h), nofun⟩

/-- What a call leaves behind: after an error that can be retried a call is left, and its delay
fits. -/
def Called (policy : RetryPolicy) (id : Uuid) (earlier : List Provider) (p : Provider) (n : ℕ)
    (r : Except Exn ProviderPaymentResult) (g : Stage) : Prop :=
  (Calling id earlier p (n + 1) g ∨ Resting id (p :: earlier) g ∧ r = .error .cancelled) ∧
    ∀ error, r = .error (.provider error) → isRetryable error = true →
      n + 1 ≠ policy.maxAttempts ∧ n < 1024

theorem createPayment_wp {payment : Payment} (own : payment.id = id) (data : PaymentInput)
    (asking : Asking id earlier p n g) :
    wp (protocol cfg.retryPolicy) (createPayment p payment data)
      (fun r _ g' => Called cfg.retryPolicy id earlier p n r g') s g := by
  simp only [createPayment, perform, wp_bind, wp_effect, orRaise_ok, wp_await]
  refine ⟨⟨own ▸ asking.payment, asking.sends⟩, fun _ _ => ⟨trivial, fun r allowed => ?_⟩⟩
  have calling : Calling id earlier p (n + 1) (g.send p) := asking.send
  cases r with
  | ok result => exact ⟨.inl calling, nofun⟩
  | error x =>
    refine ⟨.inl calling, ?_⟩
    rintro error ⟨⟩ retryable
    obtain ⟨more, fits⟩ := allowed retryable
    have counted : (g.send p).attempts = n + 1 := calling.attempts
    have few : (g.send p).attempts ≤ 1024 := fits
    exact ⟨fun last => more (counted.trans last), by omega⟩

theorem callProvider_wp {payment : Payment} (own : payment.id = id) (data : PaymentInput)
    (asking : Asking id earlier p n g) :
    wp (protocol cfg.retryPolicy) (callProvider p payment data)
      (fun r _ g' => Called cfg.retryPolicy id earlier p n r g') s g := by
  simp only [callProvider, wp_bind, perform, wp_effect]
  refine ⟨trivial, ?_⟩
  rintro (_ | semaphore) -
  · exact createPayment_wp own data asking
  · simp only [orRaise_ok, wp_bind, wp_await, wp_effect]
    refine ⟨trivial, fun acquired given => ?_⟩
    cases acquired with
    | error x =>
      obtain ⟨rfl, due⟩ := given
      obtain rfl := asking.idle due
      exact ⟨.inr ⟨asking.rest, rfl⟩, nofun⟩
    | ok _ =>
      simp only [orRaise_ok, wp_ensure]
      apply wp_mono (createPayment_wp own data asking)
      intro r s' g' called
      exact ⟨trivial, fun _ _ => called⟩

theorem recordFailure_wp (known : g.payment = some id) :
    wp (protocol cfg.retryPolicy) (recordFailure cfg p) (fun r _ g' => g' = g ∧
      ∀ x, r = .error x → g.due = none ∧ ∀ error, x ≠ .provider error) s g := by
  simp only [recordFailure, perform, wp_bind, wp_effect, orRaise_ok, wp_onlyIf]
  refine ⟨trivial, fun moved _ => ?_⟩
  split
  · exact recording_wp known _ _
  · exact ⟨rfl, nofun⟩

theorem recordSuccess_wp (known : g.payment = some id) :
    wp (protocol cfg.retryPolicy) (recordSuccess cfg p) (fun r _ g' => g' = g ∧
      ∀ x, r = .error x → g.due = none ∧ ∀ error, x ≠ .provider error) s g := by
  simp only [recordSuccess, perform, wp_bind, wp_effect, orRaise_ok, wp_onlyIf]
  refine ⟨trivial, fun moved _ => ?_⟩
  split
  · exact recording_wp known _ _
  · exact ⟨rfl, nofun⟩

theorem appendAttempt_wp (attemptNumber : ℕ) (result : AttemptResult) (latencyMs : ℚ)
    (errorCode : Option String) :
    wp (protocol cfg.retryPolicy) (appendAttempt p attemptNumber result latencyMs errorCode)
      (fun r _ g' => r = .ok () ∧ g' = g) s g := by
  simp only [appendAttempt, now, perform, wp_bind, wp_effect, orRaise_ok, wp_modify]
  exact ⟨trivial, fun _ _ => ⟨trivial, rfl⟩⟩

/-- What a round of the retry loop leaves behind. -/
def Tried (policy : RetryPolicy) (id : Uuid) (earlier : List Provider) (p : Provider) (n : ℕ) :
    Except Exn ProviderPaymentResult → Stage → Prop
  | .error (.provider error), g =>
    if isRetryable error then
      Asking id earlier p (n + 1) g ∧ n + 1 ≠ policy.maxAttempts ∧ n < 1024
    else Resting id (p :: earlier) g
  | _, g => Resting id (p :: earlier) g

theorem tried_raised {x : Exn} (h : Resting id (p :: earlier) g)
    (foreign : ∀ error, x ≠ .provider error) :
    Tried cfg.retryPolicy id earlier p n (.error x) g := by
  cases x with
  | provider error => exact absurd rfl (foreign error)
  | _ => exact h

/-- The handlers count an error that can be retried. -/
theorem afterError_wp {x : Exn} (called : Called cfg.retryPolicy id earlier p n (.error x) g)
    (attemptNumber : ℕ) (started : Seconds) :
    wp (protocol cfg.retryPolicy) (afterError cfg p attemptNumber started x)
      (fun r _ g' => match r with
        | .ok _ => Tried cfg.retryPolicy id earlier p n (.error x) g'
        | .error y => Tried cfg.retryPolicy id earlier p n (.error y) g') s g := by
  obtain ⟨calling, more⟩ := called
  have rest : Resting id (p :: earlier) g := by
    obtain calling | ⟨rest, -⟩ := calling
    · exact calling.toResting
    · exact rest
  cases x with
  | provider error =>
    have calling : Calling id earlier p (n + 1) g := by
      obtain calling | ⟨-, cancelled⟩ := calling
      · exact calling
      · cases cancelled
    simp only [afterError, latencySince, now, perform, wp_bind, wp_effect, wp_pure, orRaise_ok]
    refine ⟨trivial, fun _ _ => ⟨trivial, fun _ _ => ?_⟩⟩
    apply wp_mono (recordFailure_wp (g := g) calling.payment)
    rintro r s' g' ⟨rfl, raised⟩
    cases r with
    | error y => exact tried_raised rest (raised y rfl).2
    | ok _ =>
      simp only [orRaise_ok, wp_bind, wp_onlyIf, wp_effect]
      split
      · rename_i retryable
        refine ⟨calling.due, fun _ _ => ?_⟩
        apply wp_mono (appendAttempt_wp (p := p) (g := g'.owe p) _ _ _ _)
        rintro r s'' g'' ⟨rfl, rfl⟩
        rw [Tried, if_pos retryable]
        exact ⟨calling.owe, more error rfl retryable⟩
      · rename_i final
        apply wp_mono (appendAttempt_wp (p := p) (g := g') _ _ _ _)
        rintro r s'' g'' ⟨rfl, rfl⟩
        rw [Tried, if_neg final]
        exact rest
  | cancelled => exact rest
  | _ => exact ⟨trivial, fun _ _ => ⟨trivial, fun _ _ => rest⟩⟩

theorem operation_wp {payment : Payment} (own : payment.id = id) (data : PaymentInput)
    (asking : Asking id earlier p n g) :
    wp (protocol cfg.retryPolicy) (operation cfg p payment data)
      (fun r _ g' => Tried cfg.retryPolicy id earlier p n r g') s g := by
  simp only [operation, wp_bind, wp_get, orRaise_ok]
  apply wp_mono (allowProvider_wp (s := s) asking)
  rintro r s' g' ⟨rfl, turned, raised⟩
  cases r with
  | error x =>
    obtain ⟨due, foreign⟩ := raised x rfl
    obtain rfl := asking.idle due
    exact tried_raised asking.rest foreign
  | ok allowed =>
    simp only [orRaise_ok, wp_ite, wp_raise]
    split
    · rename_i refused
      obtain rfl := turned (by rw [refused])
      exact asking.rest
    · simp only [now, perform, wp_bind, wp_effect, wp_attempt, orRaise_ok]
      refine ⟨trivial, fun started _ => ⟨trivial, fun _ _ => ?_⟩⟩
      apply wp_mono (callProvider_wp (s := s') own data asking)
      intro r s'' g'' called
      cases r with
      | error x =>
        rw [wp_bind]
        apply wp_mono (afterError_wp called _ started)
        intro r s g h
        cases r with
        | ok _ => exact h
        | error y => exact h
      | ok result =>
        have calling : Calling id earlier p (n + 1) g'' := by
          obtain calling | ⟨-, cancelled⟩ := called.1
          · exact calling
          · cases cancelled
        rw [wp_bind]
        apply wp_mono (recordSuccess_wp (p := p) (g := g'') calling.payment)
        rintro r s g ⟨rfl, raised⟩
        cases r with
        | error x => exact tried_raised calling.toResting (raised x rfl).2
        | ok _ =>
          simp only [orRaise_ok, latencySince, now, perform, wp_bind, wp_effect, wp_pure]
          refine ⟨trivial, fun ended _ => ⟨trivial, fun _ _ => ?_⟩⟩
          apply wp_mono (appendAttempt_wp (p := p) (g := g) _ _ _ _)
          rintro r s' g' ⟨rfl, rfl⟩
          exact calling.toResting

/-- The loop ends with no retry due: the last call allowed leaves none. -/
theorem retryFrom_wp {payment : Payment} (own : payment.id = id) (data : PaymentInput)
    {lastError : Option ProviderError} {remaining : ℕ}
    (rounds : n + remaining = cfg.retryPolicy.maxAttempts)
    (more : n = 0 ∨ n ≠ cfg.retryPolicy.maxAttempts) (asking : Asking id earlier p n g) :
    wp (protocol cfg.retryPolicy)
      (retryFrom (operation cfg p payment data) cfg.retryPolicy lastError n remaining)
      (fun _ _ g' => Resting id (p :: earlier) g') s g := by
  induction remaining generalizing n lastError s g with
  | zero =>
    obtain rfl : n = 0 := by omega
    exact asking.rest
  | succ remaining ih =>
    simp only [retryFrom, wp_bind, wp_attempt, orRaise_ok]
    apply wp_mono (operation_wp own data asking)
    intro r s' g' tried
    cases r with
    | ok result => exact tried
    | error x =>
      cases x with
      | provider error =>
        simp only [wp_ite, wp_raise]
        by_cases retryable : isRetryable error = true
        · rw [Tried, if_pos retryable] at tried
          obtain ⟨again, notLast, fits⟩ := tried
          have due : g'.due = some p := (again.again (Nat.succ_ne_zero n)).1
          rw [if_neg (by simp [retryable, notLast])]
          rw [wp_bind]
          refine wp_delayFor trivial (fun _ => rfl) (fun big => absurd fits (Nat.not_lt.mpr big))
            fun _ delay => ?_
          simp only [sleep, perform, wp_bind, wp_effect, wp_await, orRaise_ok]
          refine ⟨trivial, fun slept idle => ?_⟩
          cases slept with
          | error x => cases due.symm.trans idle
          | ok _ => exact ih (by omega) (.inr notLast) again
        · rw [Tried, if_neg retryable] at tried
          rw [if_pos (.inl (by simpa using retryable))]
          exact tried
      | _ => exact tried

theorem attemptProvider_wp {payment : Payment} (own : payment.id = id) (data : PaymentInput)
    (rest : Resting id earlier g) (new : p ∉ earlier) :
    wp (protocol cfg.retryPolicy) (attemptProvider cfg payment p data)
      (fun _ _ g' => Resting id (p :: earlier) g') s g := by
  have asking : Asking id earlier p 0 g :=
    ⟨rest.payment, fun q hq => List.mem_cons_of_mem _ (rest.sent q hq),
      fun _ => ⟨rest.due, fun hp => new (rest.sent p hp)⟩, fun h => absurd rfl h⟩
  simp only [attemptProvider, runWithRetry, wp_bind, wp_modify, wp_attempt, orRaise_ok]
  apply wp_mono (retryFrom_wp own data (Nat.zero_add _) (.inl rfl) asking)
  intro r s' g' rest'
  cases r with
  | ok result => exact rest'
  | error x => cases x <;> exact rest'

end Visit

section Create

variable {cfg : Config} {id : Uuid} {earlier : List Provider} {s : Locals} {g : Stage}

/-- No retry is due. -/
def Idle (_ : Locals) (g : Stage) : Prop := g.due = none

theorem resting_neutral (_ : Locals) (g : Stage) (e : Effect) (h : Resting id earlier g)
    (he : ¬ e.attempting) : (protocol cfg.retryPolicy).ok g e ∧
      ∀ r, (protocol cfg.retryPolicy).may g e r →
        Resting id earlier ((protocol cfg.retryPolicy).next g e r) := by
  cases e with
  | host e =>
    cases e with
    | uuid4 =>
      refine ⟨trivial, fun other _ => ?_⟩
      have same : (protocol cfg.retryPolicy).next g (.host .uuid4) other = g :=
        draw_known h.payment other
      rwa [same]
    | _ => exact ⟨trivial, fun _ _ => h⟩
  | provider e =>
    cases e with
    | startPayment => exact absurd trivial he
    | _ => exact ⟨trivial, fun _ _ => h⟩
  | stats e => exact absurd trivial he
  | _ => exact ⟨trivial, fun _ _ => h⟩

theorem idle_neutral (s : Locals) (g : Stage) (e : Effect) (h : Idle s g) (he : ¬ e.attempting) :
    (protocol cfg.retryPolicy).ok g e ∧ ∀ r, (protocol cfg.retryPolicy).may g e r →
      Idle s ((protocol cfg.retryPolicy).next g e r) := by
  cases e with
  | host e => cases e <;> exact ⟨trivial, fun _ _ => h⟩
  | provider e =>
    cases e with
    | startPayment => exact absurd trivial he
    | _ => exact ⟨trivial, fun _ _ => h⟩
  | stats e => exact absurd trivial he
  | _ => exact ⟨trivial, fun _ _ => h⟩

theorem finish_keeps (data : PaymentInput) (fingerprint : String) (payment : Payment)
    (last : EventType) : Keeps (protocol cfg.retryPolicy) (fun _ g => Resting id earlier g)
      (finish cfg data fingerprint payment last) :=
  keeps_finish resting_neutral (fun _ _ _ h => h) data fingerprint payment last

theorem tryCandidate_wp (data : PaymentInput) (fingerprint : String) {payment : Payment}
    (own : payment.id = id) {p : Provider} (rest : Resting id earlier g) (new : p ∉ earlier) :
    wp (protocol cfg.retryPolicy) (tryCandidate cfg data fingerprint payment p)
      (fun _ _ g' => Resting id (p :: earlier) g') s g := by
  simp only [tryCandidate, wp_bind]
  apply wp_mono (attemptProvider_wp own data rest new)
  intro r s' g' rest'
  cases r with
  | error x => exact rest'
  | ok result =>
    simp only [orRaise_ok, current, wp_bind, wp_get, wp_pure]
    apply wp_mono (finish_keeps data fingerprint _ _ s' g' rest')
    intro r s'' g'' rest''
    cases r <;> exact rest''

theorem tryCandidates_wp (data : PaymentInput) (fingerprint : String) {payment : Payment}
    (own : payment.id = id) {candidates : List Provider} (distinct : candidates.Nodup)
    (new : ∀ p ∈ candidates, p ∉ earlier) (rest : Resting id earlier g) :
    wp (protocol cfg.retryPolicy) (tryCandidates cfg data fingerprint payment candidates)
      (fun _ _ g' => ∃ later, Resting id later g') s g := by
  induction candidates generalizing earlier s g with
  | nil => exact ⟨earlier, rest⟩
  | cons p candidates ih =>
    obtain ⟨apart, distinct⟩ := List.nodup_cons.mp distinct
    simp only [tryCandidates, wp_bind, wp_attempt, orRaise_ok]
    apply wp_mono (tryCandidate_wp data fingerprint own rest (new p (List.mem_cons_self ..)))
    intro r s' g' rest'
    cases r with
    | ok payment => exact ⟨_, rest'⟩
    | error x =>
      cases x with
      | provider error =>
        simp only [wp_bind, wp_modify, orRaise_ok, wp_ite, wp_pure]
        split
        · exact ⟨_, rest'⟩
        · refine ih distinct (fun q hq => ?_) rest'
          intro hmem
          obtain rfl | hmem := List.mem_cons.mp hmem
          · exact apart hq
          · exact new q (List.mem_cons_of_mem _ hq) hmem
      | _ => exact ⟨_, rest'⟩

theorem healthyProviders_wp (providers : List Provider) (rest : Resting id earlier g) :
    wp (protocol cfg.retryPolicy) (healthyProviders providers) (fun r _ g' =>
      Resting id earlier g' ∧ ∀ healthy, r = .ok healthy → healthy.Sublist providers) s g := by
  induction providers with
  | nil => exact ⟨rest, fun healthy h => Except.ok.inj h ▸ .refl _⟩
  | cons provider providers ih =>
    simp only [healthyProviders, perform, wp_bind, wp_await, wp_effect]
    refine ⟨trivial, fun r _ => ?_⟩
    cases r with
    | error x => exact ⟨rest, nofun⟩
    | ok healthy =>
      simp only [orRaise_ok, wp_bind]
      apply wp_mono ih
      rintro r s' g' ⟨rest, sublist⟩
      cases r with
      | error x => exact ⟨rest, nofun⟩
      | ok others =>
        refine ⟨rest, fun found h => ?_⟩
        obtain rfl := Except.ok.inj h
        have shorter := sublist others rfl
        cases healthy with
        | true => exact shorter.cons_cons provider
        | false => exact shorter.cons provider

theorem orchestrate_wp (distinct : cfg.providers.Nodup) (data : PaymentInput)
    (fingerprint : String) : wp (protocol cfg.retryPolicy) (orchestrate cfg data fingerprint)
      (fun _ s' g' => Idle s' g') s .start := by
  simp only [orchestrate, newPayment, uuid4, now, perform, wp_bind, wp_effect, orRaise_ok, wp_pure,
    wp_modify]
  refine ⟨trivial, fun id _ => ⟨trivial, fun _ _ => ⟨trivial, fun _ _ => ?_⟩⟩⟩
  have rest : Resting id [] (Stage.start.draw id) := ⟨rfl, nofun, rfl⟩
  apply wp_mono (healthyProviders_wp cfg.providers rest)
  rintro r s' g' ⟨rest, sublist⟩
  cases r with
  | error x => exact rest.due
  | ok healthy =>
    simp only [orRaise_ok, wp_bind, wp_await, wp_effect]
    refine ⟨trivial, fun r _ => ?_⟩
    cases r with
    | error x => exact rest.due
    | ok provider =>
      have apart : (healthy.filter fun p => p ≠ provider).Nodup :=
        (distinct.sublist (sublist healthy rfl)).filter _
      have candidates : (provider :: healthy.filter fun p => p ≠ provider).Nodup :=
        List.nodup_cons.mpr ⟨by simp, apart⟩
      simp only [orRaise_ok, wp_bind]
      apply wp_mono (tryCandidates_wp data fingerprint rfl candidates
        (fun _ _ => List.not_mem_nil) rest)
      rintro r s'' g'' ⟨later, rest⟩
      cases r with
      | error x => exact rest.due
      | ok completed =>
        cases completed with
        | some payment => exact rest.due
        | none =>
          simp only [orRaise_ok, current, wp_bind, wp_get, wp_pure]
          apply wp_mono (finish_keeps data fingerprint _ .paymentFailed s'' g'' rest)
          intro r s₃ g₃ rest
          cases r with
          | error x => exact rest.due
          | ok _ =>
            simp only [orRaise_ok, wp_bind, wp_get]
            split <;> exact rest.due

theorem createClaimed_wp (distinct : cfg.providers.Nodup) (data : PaymentInput)
    (fingerprint : String) : wp (protocol cfg.retryPolicy) (createClaimed cfg data fingerprint)
      (fun _ s' g' => Idle s' g') s .start := by
  simp only [createClaimed, perform, wp_bind, wp_await, wp_effect]
  refine ⟨trivial, fun r _ => ?_⟩
  cases r with
  | error x => rfl
  | ok existing =>
    cases existing with
    | none => exact orchestrate_wp distinct data fingerprint
    | some existing =>
      have kept : Keeps (protocol cfg.retryPolicy) Idle (do
          cfg.coordinator.complete data.key fingerprint existing.id
          modify fun s => { s with claimed := false }
          return existing : Service Payment) :=
        keeps_bind (keeps_coordinator (neutral_unsaving idle_neutral) (cfg.coordinator.complete_uses _ _ _)) fun _ =>
          keeps_bind (keeps_modify fun _ _ h => h) fun _ => keeps_pure _
      exact keeps_ite (keeps_raise _) kept s _ rfl

/-- Before a payment is routed nothing is sent and nothing is due. -/
theorem coordinator_wp {α : Type} {m : Service α} (h : Uses Effect.coordinating m) :
    wp (protocol cfg.retryPolicy) m (fun _ _ g' => g' = .start) s .start := by
  refine wp_of_uses (J := fun g => g = .start) h ?_ rfl fun _ _ h => h
  rintro g e rfl he
  cases e with
  | coordinator e => exact ⟨trivial, fun _ _ => rfl⟩
  | redis e => exact ⟨trivial, fun _ _ => rfl⟩
  | _ => exact he.elim

theorem create_wp (distinct : cfg.providers.Nodup) (data : PaymentInput) :
    wp (protocol cfg.retryPolicy) (create cfg data) (fun _ s' g' => Idle s' g') s .start := by
  simp only [create, wp_bind]
  apply wp_mono (coordinator_wp (cfg.coordinator.acquire_uses _ _))
  rintro r s' g' rfl
  cases r with
  | error x => rfl
  | ok decision =>
    rw [orRaise_ok]
    split
    · rfl
    · exact keeps_replay (neutral_unsaving idle_neutral) decision s' _ rfl
    · simp only [wp_bind, wp_modify, orRaise_ok, wp_attempt]
      apply wp_mono (createClaimed_wp distinct data _)
      intro r s'' g'' idle
      cases r with
      | ok payment => exact idle
      | error x =>
        exact keeps_bind (keeps_release (neutral_unsaving idle_neutral) data _) (fun _ => keeps_raise _) s'' g'' idle

end Create

def discipline (cfg : Config) :
    Discipline Call Effect Effect.Reply (Except Exn Result) Stage :=
  ⟨fun _ => protocol cfg.retryPolicy, fun _ => .start, fun _ _ g => g.due = none⟩

theorem run_follows {cfg : Config} (distinct : cfg.providers.Nodup) (c : Call) :
    ((c.run cfg).start {}).Follows (protocol cfg.retryPolicy) ((discipline cfg).post c) .start := by
  apply start_follows
  cases c with
  | create data =>
    simp only [Call.run, wp_bind]
    apply wp_mono (create_wp distinct data)
    intro r s g idle
    cases r <;> exact idle
  | refund paymentId amount =>
    exact keeps_bind (keeps_refund idle_neutral paymentId amount) (fun _ => keeps_pure _) {} _ rfl
  | recover provider =>
    have record : Keeps (protocol cfg.retryPolicy) Idle (recordSuccess cfg provider) := by
      refine keeps_bind (fun s g h => ⟨trivial, fun _ _ => h⟩) fun _ => keeps_onlyIf ?_
      apply keeps_of_uses (uses_recordCircuitTransition _ _ _ _)
      intro s g e h he
      apply idle_neutral s g e h
      cases e with
      | host e => exact fun h => h
      | store e => exact fun h => h
      | _ => exact he.elim
    exact keeps_bind record (fun _ => keeps_pure _) {} _ rfl

end PySwitch.Retries
