import PySwitch.Async.Outcome
import PySwitch.ServiceFootprint

namespace PySwitch.Service

open Async Program

variable {γ : Type} {P : Protocol Effect Effect.Reply γ} {I J : Locals → γ → Prop} {cfg : Config}

section Settle

variable (after : ∀ s g (e : Effect), J s g → e.settling →
    P.ok g e ∧ ∀ r, P.may g e r → J s (P.next g e r))
  (stored : ∀ s g events x, J s g → ¬ P.may g (.store (.append events)) (.error x))

include after

theorem succeeds_settling {e : Effect} (h : e.settling) : Succeeds P J (perform e) :=
  succeeds_effect fun s g hJ => after s g e hJ h

theorem succeeds_latencySince (started : Seconds) : Succeeds P J (latencySince started) :=
  succeeds_bind (succeeds_settling after trivial) fun _ => succeeds_pure _

theorem succeeds_newEvent (eventType : EventType) (merchantId : String) (aggregateId : Option Uuid)
    (payload : EventPayload) (provider : Option Provider) :
    Succeeds P J (newEvent eventType merchantId aggregateId payload provider) :=
  succeeds_bind (succeeds_settling after trivial) fun _ =>
    succeeds_bind (succeeds_settling after trivial) fun _ => succeeds_pure _

theorem succeeds_paymentEvents (payment : Payment) (last : EventType) :
    Succeeds P J (paymentEvents payment last) :=
  succeeds_bind (succeeds_newEvent after _ _ _ _ _) fun _ =>
    succeeds_bind (succeeds_newEvent after _ _ _ _ _) fun _ =>
      succeeds_bind (succeeds_newEvent after _ _ _ _ _) fun _ => succeeds_pure _

include stored

theorem succeeds_recordCircuitTransition (provider : Provider) (previous current : CircuitState) :
    Succeeds P J (recordCircuitTransition cfg provider previous current) := by
  apply succeeds_onlyIf
  apply succeeds_bind
  · exact succeeds_newEvent after _ _ _ _ _
  · intro event
    apply succeeds_await
    intro s g hJ
    rw [wp_effect]
    refine ⟨(after s g (.store (.append [event])) hJ trivial).1, fun r hr => ?_⟩
    cases r with
    | ok u => exact ⟨⟨u, rfl⟩, (after s g (.store (.append [event])) hJ trivial).2 _ hr⟩
    | error x => exact absurd hr (stored s g _ x hJ)

theorem succeeds_recordSuccess (provider : Provider) : Succeeds P J (recordSuccess cfg provider) :=
  succeeds_bind (succeeds_settling after trivial) fun _ =>
    succeeds_onlyIf (succeeds_recordCircuitTransition after stored _ _ _)

end Settle

section Turn

variable (before : ∀ s g (e : Effect), I s g → e.trying ∨ e.recording →
    P.ok g e ∧ ∀ r, P.may g e r → I s (P.next g e r))
  (finish : ∀ s g p paymentId, I s g → P.ok g (.provider (.finishPayment p paymentId)) ∧
    ∀ r, P.may g (.provider (.finishPayment p paymentId)) r → match r with
      | .ok _ => J s (P.next g (.provider (.finishPayment p paymentId)) r)
      | .error _ => I s (P.next g (.provider (.finishPayment p paymentId)) r))
  (after : ∀ s g (e : Effect), J s g → e.settling →
    P.ok g e ∧ ∀ r, P.may g e r → J s (P.next g e r))
  (stored : ∀ s g events x, J s g → ¬ P.may g (.store (.append events)) (.error x))
  (attempts : ∀ s g l, I s g → I { s with attempts := l } g)
  (attempts' : ∀ s g l, J s g → J { s with attempts := l } g)

include before finish

theorem turns_createPayment (provider : Provider) (payment : Payment) (data : PaymentInput) :
    Turns P I J (createPayment provider payment data) := by
  refine turns_bind (keeps_trying (neutral_hosting before) trivial) fun _ => ?_
  apply turns_await
  intro s g hI
  rw [wp_effect]
  refine ⟨(finish s g _ _ hI).1, fun r hr => ?_⟩
  cases r with
  | ok result => exact (finish s g _ _ hI).2 (.ok result) hr
  | error x => exact (finish s g _ _ hI).2 (.error x) hr

include after

theorem turns_callProvider (provider : Provider) (payment : Payment) (data : PaymentInput) :
    Turns P I J (callProvider provider payment data) := by
  refine turns_bind (keeps_trying (neutral_hosting before) trivial) fun semaphore => ?_
  cases semaphore with
  | none => exact turns_createPayment before finish provider payment data
  | some semaphore =>
    refine turns_bind (keeps_await (keeps_trying (neutral_hosting before) trivial)) fun _ => ?_
    exact turns_ensure (turns_createPayment before finish provider payment data)
      (keeps_trying (neutral_hosting before) trivial) (succeeds_settling after trivial)

include stored attempts attempts'

/-- An attempt returns once its provider call has returned, and raises nothing after that. -/
theorem turns_operation (provider : Provider) (payment : Payment) (data : PaymentInput) :
    Turns P I J (operation cfg provider payment data) := by
  apply turns_bind keeps_get
  intro s
  apply turns_bind
  · exact keeps_bind (keeps_trying (neutral_hosting before) trivial) fun _ =>
      keeps_bind (keeps_onlyIf (keeps_recordCircuitTransition before _ _ _)) fun _ => keeps_pure _
  intro allowed
  apply turns_ite (turns_raise _)
  refine turns_bind (keeps_hosting (neutral_calling (neutral_hosting before)) uses_now) fun started => ?_
  refine turns_bind (keeps_trying (neutral_hosting before) trivial) fun _ => ?_
  apply turns_try (turns_callProvider before finish after provider payment data)
  · intro result
    apply succeeds_bind (succeeds_recordSuccess after stored provider)
    intro _
    refine succeeds_bind (succeeds_latencySince after started) fun latencyMs => ?_
    refine succeeds_bind (succeeds_settling after trivial) fun _ => ?_
    apply succeeds_bind
    · exact succeeds_bind (succeeds_settling after trivial) fun _ =>
        succeeds_modify fun s g => attempts' s g _
    · intro _
      exact succeeds_pure result
  · intro x
    exact turns_bind (keeps_afterError (neutral_calling (neutral_hosting before)) attempts
      (keeps_recordFailure (neutral_hosting before) (keeps_recordCircuitTransition before))
      _ _ _ x) fun _ => turns_raise x

end Turn

theorem turns_retryFrom {α : Type} {operation : Service α} (policy : RetryPolicy)
    (hop : Turns P I J operation) (random : Keeps P I (perform (.host .random)))
    (sleeps : ∀ delay, Keeps P I (sleep delay)) (lastError : Option ProviderError)
    (attempt remaining : ℕ) :
    Turns P I J (retryFrom operation policy lastError attempt remaining) := by
  induction remaining generalizing lastError attempt with
  | zero => exact turns_raise _
  | succ remaining ih =>
    apply turns_try hop
    · intro result
      exact succeeds_pure _
    · intro x
      cases x with
      | provider error =>
        exact turns_ite (turns_raise _)
          (turns_bind (keeps_delayFor policy random attempt) fun _ =>
            turns_bind (sleeps _) fun _ => ih _ _)
      | _ => exact turns_raise _

/-- A visit to a provider returns once a provider call has returned. -/
theorem turns_attemptProvider {provider : Provider} {payment : Payment} {data : PaymentInput}
    (attempts : ∀ s g l, I s g → I { s with attempts := l } g)
    (extended : ∀ s g, I s g → I (extendAttempts s) g)
    (extended' : ∀ s g, J s g → J (extendAttempts s) g)
    (op : Turns P I J (operation cfg provider payment data))
    (random : Keeps P I (perform (.host .random))) (sleeps : ∀ delay, Keeps P I (sleep delay)) :
    Turns P I J (attemptProvider cfg payment provider data) := by
  apply turns_bind (keeps_modify fun s g => attempts s g _)
  intro _
  apply turns_try (turns_retryFrom _ op random sleeps _ _ _)
  · intro result
    exact succeeds_bind (succeeds_modify extended') fun _ => succeeds_pure _
  · intro x
    cases x with
    | provider error =>
      exact turns_bind (keeps_modify fun s g => attempts s g _) fun _ =>
        turns_bind (keeps_modify extended) fun _ => turns_raise _
    | _ => exact turns_raise _

section Conclude

-- `I` holds while a new payment is worked on, `M` when a provider has returned a result for
-- it, `J` when it has been saved as succeeded and `K` when it has been saved as failed; `L` holds
-- when the call is left before.
variable {M L : Locals → γ → Prop} {J K : Payment → Locals → γ → Prop} {data : PaymentInput}
  {fingerprint : String} {s : Locals} {g : γ}

/-- Only a provider error leaves the payment open to another provider. -/
def Unfinished (I L : Locals → γ → Prop) (x : Exn) : Locals → γ → Prop :=
  match x with
  | .provider _ => I
  | _ => L

theorem Unfinished.left (left : ∀ s g, I s g → L s g) {x : Exn} (h : Unfinished I L x s g) :
    L s g := by
  cases x with
  | provider error => exact left s g h
  | _ => exact h

theorem unfinished_of (left : ∀ s g, I s g → L s g) {x : Exn} (h : I s g) :
    Unfinished I L x s g := by
  cases x with
  | provider error => exact h
  | _ => exact left s g h

variable (left : ∀ s g, I s g → L s g)
  (visit : ∀ payment provider, Turns P I M (attemptProvider cfg payment provider data))
  (succeed : ∀ payment provider (result : ProviderPaymentResult) s g, M s g →
    let p := { s.payment.getD payment with
      status := .succeeded
      providerReference := some result.reference
      provider := some provider }
    wp P (finish cfg data fingerprint p .paymentSucceeded) (fun r s' g' => match r with
      | .ok _ => J p s' g'
      | .error x => Unfinished I L x s' g') s g)

include left visit succeed

theorem tryCandidate_wp (payment : Payment) (candidate : Provider) (hI : I s g) :
    wp P (tryCandidate cfg data fingerprint payment candidate) (fun r s' g' => match r with
      | .ok p => J p s' g'
      | .error x => Unfinished I L x s' g') s g := by
  simp only [tryCandidate, wp_bind]
  apply wp_mono (visit payment candidate s g hI)
  intro r s' g' h
  cases r with
  | error x => exact unfinished_of left h
  | ok result =>
    simp only [orRaise_ok, current, wp_bind, wp_get, wp_pure]
    apply wp_mono (succeed payment candidate result s' g' h)
    intro r s'' g'' h
    cases r with
    | error x => exact h
    | ok => exact h

variable (noted : ∀ s g error, I s g → I { s with lastError := error } g)

include noted

theorem tryCandidates_wp (payment : Payment) (candidates : List Provider) (hI : I s g) :
    wp P (tryCandidates cfg data fingerprint payment candidates) (fun r s' g' => match r with
      | .ok (some p) => J p s' g'
      | .ok none => I s' g'
      | .error _ => L s' g') s g := by
  induction candidates generalizing s g with
  | nil => exact hI
  | cons candidate rest ih =>
    simp only [tryCandidates, wp_bind, wp_attempt]
    apply wp_mono (tryCandidate_wp left visit succeed payment candidate hI)
    intro r s' g' h
    cases r with
    | ok p => exact h
    | error x =>
      cases x with
      | provider error =>
        simp only [orRaise_ok, wp_bind, wp_modify, wp_ite, wp_pure]
        split
        · exact noted s' g' _ h
        · exact ih (noted s' g' _ h)
      | _ => exact h

/-- A new payment is saved as succeeded and returned, or saved as failed and a provider error
raised, or the call is left before. -/
theorem orchestrate_wp
    (begin : wp P (newPayment data fingerprint) (fun r s' g' =>
      ∃ p, r = .ok p ∧ I { s' with payment := some p } g') s g)
    (health : Keeps P I (healthyProviders cfg.providers))
    (choose : ∀ healthy, Keeps P I (await (perform (.provider (.choose healthy)))))
    (fail : ∀ payment s g, I s g →
      let p := { s.payment.getD payment with status := .failed }
      wp P (finish cfg data fingerprint p .paymentFailed) (fun r s' g' => match r with
        | .ok _ => K p s' g'
        | .error _ => L s' g') s g) :
    wp P (orchestrate cfg data fingerprint) (fun r s' g' => match r with
      | .ok p => J p s' g'
      | .error x => L s' g' ∨ ∃ p error, x = .provider error ∧ K p s' g') s g := by
  simp only [orchestrate, wp_bind]
  apply wp_mono begin
  rintro _ s' g' ⟨p, rfl, hI⟩
  simp only [orRaise_ok, wp_bind, wp_modify]
  apply wp_mono (health _ _ hI)
  intro r s' g' hI
  cases r with
  | error x => exact .inl (left _ _ hI)
  | ok healthy =>
    simp only [orRaise_ok, wp_bind]
    apply wp_mono (choose healthy _ _ hI)
    intro r s' g' hI
    cases r with
    | error x => exact .inl (left _ _ hI)
    | ok provider =>
      simp only [orRaise_ok, wp_bind]
      apply wp_mono (tryCandidates_wp left visit succeed noted _ _ hI)
      intro r s' g' h
      cases r with
      | error x => exact .inl h
      | ok completed =>
        cases completed with
        | some p => exact h
        | none =>
          simp only [orRaise_ok, current, wp_bind, wp_get, wp_pure]
          apply wp_mono (fail p s' g' h)
          intro r s'' g'' h
          cases r with
          | error x => exact .inl h
          | ok =>
            simp only [orRaise_ok, wp_bind, wp_get]
            split <;> exact .inr ⟨_, _, rfl, h⟩

end Conclude

end PySwitch.Service
