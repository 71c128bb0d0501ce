import PySwitch.Service

namespace PySwitch

open Async Program

/-- The effects of one attempt at a provider. -/
def Effect.attempting : Effect → Prop
  | .circuit _ => True
  | .stats _ => True
  | .semaphore _ => True
  | .provider (.startPayment _ _ _ _ _) => True
  | .provider (.finishPayment _ _) => True
  | _ => False

/-- The effects of an attempt other than the end of the provider call. -/
def Effect.trying : Effect → Prop
  | .circuit _ => True
  | .stats _ => True
  | .semaphore _ => True
  | .provider (.startPayment _ _ _ _ _) => True
  | _ => False

/-- The effects of an attempt that leave the circuits alone, other than the end of the call. -/
def Effect.calling : Effect → Prop
  | .stats _ => True
  | .semaphore _ => True
  | .provider (.startPayment _ _ _ _ _) => True
  | _ => False

/-- Reading the clock and drawing an identifier. -/
def Effect.hosting : Effect → Prop
  | .host .now => True
  | .host .uuid4 => True
  | _ => False

def Effect.recording : Effect → Prop
  | .host .now => True
  | .host .uuid4 => True
  | .store (.append _) => True
  | _ => False

def Effect.saving : Effect → Prop
  | .store (.save _) => True
  | .store (.saveWithEvents _ _) => True
  | .store (.append _) => True
  | _ => False

/-- The effects of an attempt whose provider call has returned. -/
def Effect.settling : Effect → Prop
  | .host .now => True
  | .host .uuid4 => True
  | .circuit (.recordSuccess _) => True
  | .stats (.finishRequest _ _ _ _) => True
  | .semaphore (.release _ _) => True
  | .store (.append _) => True
  | _ => False

theorem Effect.recording_of_hosting (e : Effect) (h : e.hosting) : e.recording := by
  cases e with
  | host e => cases e <;> exact h
  | _ => exact h.elim

theorem Effect.trying_of_calling (e : Effect) (h : e.calling) : e.trying := by
  cases e with
  | stats e => exact h
  | semaphore e => exact h
  | provider e => cases e <;> exact h
  | _ => exact h.elim

theorem Effect.not_saving_of_hosting (e : Effect) (h : e.hosting) : ¬ e.saving := by
  cases e with
  | host e => exact id
  | _ => exact h.elim

theorem Effect.not_saving_of_coordinating (e : Effect) (h : e.coordinating) : ¬ e.saving := by
  cases e with
  | coordinator e => exact id
  | redis e => exact id
  | _ => exact h.elim

theorem Effect.not_attempting_of_hosting (e : Effect) (h : e.hosting) : ¬ e.attempting := by
  cases e with
  | host e => exact id
  | _ => exact h.elim

theorem Effect.not_attempting_of_saving (e : Effect) (h : e.saving) : ¬ e.attempting := by
  cases e with
  | store e => exact id
  | _ => exact h.elim

theorem Effect.not_attempting_of_coordinating (e : Effect) (h : e.coordinating) :
    ¬ e.attempting := by
  cases e with
  | coordinator e => exact id
  | redis e => exact id
  | _ => exact h.elim

namespace Service

theorem uses_now : Uses Effect.hosting now := uses_effect trivial

theorem uses_uuid4 : Uses Effect.hosting uuid4 := uses_effect trivial

theorem uses_newEvent (eventType : EventType) (merchantId : String) (aggregateId : Option Uuid)
    (payload : EventPayload) (provider : Option Provider) :
    Uses Effect.hosting (newEvent eventType merchantId aggregateId payload provider) :=
  uses_bind uses_uuid4 fun _ => uses_bind uses_now fun _ => uses_pure _

theorem uses_paymentEvents (payment : Payment) (last : EventType) :
    Uses Effect.hosting (paymentEvents payment last) :=
  uses_bind (uses_newEvent _ _ _ _ _) fun _ => uses_bind (uses_newEvent _ _ _ _ _) fun _ =>
    uses_bind (uses_newEvent _ _ _ _ _) fun _ => uses_pure _

theorem uses_newPayment (data : PaymentInput) (fingerprint : String) :
    Uses Effect.hosting (newPayment data fingerprint) :=
  uses_bind uses_uuid4 fun _ => uses_bind uses_now fun _ => uses_bind uses_now fun _ => uses_pure _

theorem uses_latencySince (started : Seconds) : Uses Effect.hosting (latencySince started) :=
  uses_bind uses_now fun _ => uses_pure _

theorem uses_recordCircuitTransition (cfg : Config) (provider : Provider)
    (previous current : CircuitState) :
    Uses Effect.recording (recordCircuitTransition cfg provider previous current) :=
  uses_onlyIf (uses_bind (uses_mono Effect.recording_of_hosting (uses_newEvent _ _ _ _ _))
    fun _ => uses_await (uses_effect trivial))

theorem uses_save (cfg : Config) (payment : Payment) (events : List EventEnvelope) :
    Uses Effect.saving (save cfg payment events) :=
  uses_ite (uses_await (uses_effect trivial))
    (uses_bind (uses_await (uses_effect trivial)) fun _ =>
      uses_onlyIf (uses_await (uses_effect trivial)))

theorem uses_healthyProviders (providers : List Provider) :
    Uses (fun e => ∃ p, e = .provider (.healthCheck p)) (healthyProviders providers) := by
  induction providers with
  | nil => exact uses_pure _
  | cons provider rest ih =>
    exact uses_bind (uses_await (uses_effect ⟨provider, rfl⟩)) fun _ =>
      uses_bind ih fun _ => uses_pure _

section Keeps

variable {γ : Type} {P : Protocol Effect Effect.Reply γ} {I : Locals → γ → Prop} {cfg : Config}

theorem keeps_delayFor (policy : RetryPolicy) (random : Keeps P I (perform (.host .random)))
    (retryNumber : ℕ) : Keeps P I (delayFor policy retryNumber) := by
  unfold delayFor
  split
  · exact keeps_raise _
  · exact keeps_ite (keeps_pure _) (keeps_bind random fun _ => keeps_pure _)

theorem wp_delayFor {policy : RetryPolicy} {retryNumber : ℕ} {s : Locals} {g : γ}
    {Q : Except Exn Seconds → Locals → γ → Prop} (ok : P.ok g (.host .random))
    (still : ∀ r, P.next g (.host .random) r = g)
    (overflow : 1024 ≤ retryNumber → ∀ message, Q (.error (.other message)) s g)
    (fits : retryNumber < 1024 → ∀ delay, Q (.ok delay) s g) :
    wp P (delayFor policy retryNumber) Q s g := by
  unfold delayFor RetryPolicy.base
  by_cases big : 1024 ≤ retryNumber
  · rw [if_pos big]
    exact overflow big _
  · rw [if_neg big]
    have fits := fits (Nat.lt_of_not_le big)
    simp only [perform, wp_ite, wp_bind, wp_effect, wp_pure, orRaise_ok, still]
    split
    · exact fits _
    · exact ⟨ok, fun randomValue _ => fits _⟩

theorem keeps_retryFrom {α : Type} {operation : Service α} (policy : RetryPolicy)
    (hop : Keeps P I operation) (random : Keeps P I (perform (.host .random)))
    (sleeps : ∀ delay, Keeps P I (sleep delay)) (lastError : Option ProviderError)
    (attempt remaining : ℕ) : Keeps P I (retryFrom operation policy lastError attempt remaining) := by
  induction remaining generalizing lastError attempt with
  | zero => exact keeps_raise _
  | succ remaining ih =>
    refine keeps_bind (keeps_attempt hop) fun answer => ?_
    cases answer with
    | ok result => exact keeps_pure _
    | error x =>
      cases x with
      | provider error =>
        exact keeps_ite (keeps_raise _)
          (keeps_bind (keeps_delayFor policy random attempt) fun _ =>
            keeps_bind (sleeps _) fun _ => ih _ _)
      | _ => exact keeps_raise _

section Record

variable (neutral : ∀ s g (e : Effect), I s g → e.trying ∨ e.recording →
  P.ok g e ∧ ∀ r, P.may g e r → I s (P.next g e r))

include neutral

theorem keeps_recording {α : Type} {m : Service α} (h : Uses Effect.recording m) :
    Keeps P I m :=
  keeps_of_uses h fun s g e hI h => neutral s g e hI (.inr h)

theorem keeps_recordCircuitTransition (provider : Provider) (previous current : CircuitState) :
    Keeps P I (recordCircuitTransition cfg provider previous current) :=
  keeps_recording neutral (uses_recordCircuitTransition cfg provider previous current)

theorem neutral_hosting (s : Locals) (g : γ) (e : Effect) (hI : I s g)
    (h : e.trying ∨ e.hosting) : P.ok g e ∧ ∀ r, P.may g e r → I s (P.next g e r) :=
  neutral s g e hI (h.imp_right (Effect.recording_of_hosting e))

end Record

section Calling

variable (neutral : ∀ s g (e : Effect), I s g → e.calling ∨ e.hosting →
  P.ok g e ∧ ∀ r, P.may g e r → I s (P.next g e r))

include neutral

theorem keeps_calling {e : Effect} (h : e.calling) : Keeps P I (perform e) :=
  keeps_of_uses (A := Effect.calling) (uses_effect h) fun s g e hI h =>
    neutral s g e hI (.inl h)

theorem keeps_hosting {α : Type} {m : Service α} (h : Uses Effect.hosting m) : Keeps P I m :=
  keeps_of_uses h fun s g e hI h => neutral s g e hI (.inr h)

variable (attempts : ∀ s g l, I s g → I { s with attempts := l } g)

include attempts

theorem keeps_appendAttempt (provider : Provider) (attemptNumber : ℕ) (result : AttemptResult)
    (latencyMs : ℚ) (errorCode : Option String) :
    Keeps P I (appendAttempt provider attemptNumber result latencyMs errorCode) :=
  keeps_bind (keeps_hosting neutral uses_now) fun _ => keeps_modify fun s g => attempts s g _

variable (failure : ∀ provider, Keeps P I (recordFailure cfg provider))

include failure

theorem keeps_afterError (provider : Provider) (attemptNumber : ℕ) (started : Seconds) (x : Exn) :
    Keeps P I (afterError cfg provider attemptNumber started x) := by
  have latency := keeps_hosting neutral (uses_latencySince started)
  cases x with
  | provider error =>
    exact keeps_bind latency fun _ => keeps_bind (keeps_calling neutral trivial) fun _ =>
      keeps_bind (failure provider) fun _ =>
      keeps_bind (keeps_onlyIf (keeps_calling neutral trivial)) fun _ =>
      keeps_appendAttempt neutral attempts _ _ _ _ _
  | cancelled => exact keeps_pure _
  | _ => exact keeps_bind latency fun _ => keeps_calling neutral trivial

variable (finish : ∀ s g p paymentId, I s g → P.ok g (.provider (.finishPayment p paymentId)) ∧
  ∀ r, P.may g (.provider (.finishPayment p paymentId)) r →
    I s (P.next g (.provider (.finishPayment p paymentId)) r))

include finish

omit attempts failure in
theorem keeps_callProvider (provider : Provider) (payment : Payment) (data : PaymentInput) :
    Keeps P I (callProvider provider payment data) := by
  have create : Keeps P I (createPayment provider payment data) :=
    keeps_bind (keeps_calling neutral trivial) fun _ =>
      keeps_await fun s g hI => finish s g provider payment.id hI
  refine keeps_bind (keeps_calling neutral trivial) fun semaphore => ?_
  cases semaphore with
  | none => exact create
  | some semaphore =>
    exact keeps_bind (keeps_await (keeps_calling neutral trivial)) fun _ =>
      keeps_ensure create (keeps_calling neutral trivial)

/-- An attempt keeps what its dealings with the circuit and none of its other effects change. -/
theorem keeps_operation_of (allow : ∀ provider, Keeps P I (allowProvider cfg provider))
    (success : ∀ provider, Keeps P I (recordSuccess cfg provider))
    (provider : Provider) (payment : Payment) (data : PaymentInput) :
    Keeps P I (operation cfg provider payment data) := by
  refine keeps_bind keeps_get fun s => keeps_bind (allow provider) fun allowed =>
    keeps_ite (keeps_raise _) ?_
  refine keeps_bind (keeps_hosting neutral uses_now) fun started =>
    keeps_bind (keeps_calling neutral trivial) fun _ =>
    keeps_bind (keeps_attempt (keeps_callProvider neutral finish _ _ _)) fun answer => ?_
  cases answer with
  | error x =>
    exact keeps_bind (keeps_afterError neutral attempts failure _ _ _ _) fun _ => keeps_raise _
  | ok result =>
    refine keeps_bind (success provider) fun _ => keeps_bind
      (keeps_hosting neutral (uses_latencySince started))
      fun _ => keeps_bind (keeps_calling neutral trivial) fun _ =>
      keeps_bind (keeps_appendAttempt neutral attempts _ _ _ _ _) fun _ => keeps_pure _

end Calling

section Attempt

variable (neutral : ∀ s g (e : Effect), I s g → e.trying ∨ e.hosting →
  P.ok g e ∧ ∀ r, P.may g e r → I s (P.next g e r))

include neutral

theorem neutral_calling (s : Locals) (g : γ) (e : Effect) (hI : I s g)
    (h : e.calling ∨ e.hosting) : P.ok g e ∧ ∀ r, P.may g e r → I s (P.next g e r) :=
  neutral s g e hI (h.imp_left (Effect.trying_of_calling e))

theorem keeps_trying {e : Effect} (h : e.trying) : Keeps P I (perform e) :=
  keeps_of_uses (A := Effect.trying) (uses_effect h) fun s g e hI h =>
    neutral s g e hI (.inl h)

variable (record : ∀ provider previous current,
  Keeps P I (recordCircuitTransition cfg provider previous current))

include record

theorem keeps_recordFailure (provider : Provider) : Keeps P I (recordFailure cfg provider) :=
  keeps_bind (keeps_trying neutral trivial) fun _ => keeps_onlyIf (record _ _ _)

theorem keeps_recordSuccess (provider : Provider) : Keeps P I (recordSuccess cfg provider) :=
  keeps_bind (keeps_trying neutral trivial) fun _ => keeps_onlyIf (record _ _ _)

theorem keeps_allowProvider (provider : Provider) : Keeps P I (allowProvider cfg provider) :=
  keeps_bind (keeps_trying neutral trivial) fun _ =>
    keeps_bind (keeps_onlyIf (record _ _ _)) fun _ => keeps_pure _

variable (attempts : ∀ s g l, I s g → I { s with attempts := l } g)
  (finish : ∀ s g p paymentId, I s g → P.ok g (.provider (.finishPayment p paymentId)) ∧
    ∀ r, P.may g (.provider (.finishPayment p paymentId)) r →
      I s (P.next g (.provider (.finishPayment p paymentId)) r))

include attempts finish

/-- An attempt at a provider keeps what none of its effects can change. -/
theorem keeps_operation (provider : Provider) (payment : Payment) (data : PaymentInput) :
    Keeps P I (operation cfg provider payment data) :=
  keeps_operation_of (neutral_calling neutral) attempts (keeps_recordFailure neutral record) finish
    (keeps_allowProvider neutral record) (keeps_recordSuccess neutral record) provider payment data

end Attempt

theorem keeps_attemptProvider {provider : Provider} {payment : Payment} {data : PaymentInput}
    (attempts : ∀ s g l, I s g → I { s with attempts := l } g)
    (extended : ∀ s g, I s g → I (extendAttempts s) g)
    (op : Keeps P I (operation cfg provider payment data))
    (random : Keeps P I (perform (.host .random))) (sleeps : ∀ delay, Keeps P I (sleep delay)) :
    Keeps P I (attemptProvider cfg payment provider data) := by
  refine keeps_bind (keeps_modify fun s g => attempts s g _) fun _ =>
    keeps_bind (keeps_attempt ?_) fun answer => ?_
  · exact keeps_retryFrom _ op random sleeps _ _ _
  · cases answer with
    | ok result => exact keeps_bind (keeps_modify extended) fun _ => keeps_pure _
    | error x =>
      cases x with
      | provider error =>
        exact keeps_bind (keeps_modify fun s g => attempts s g _) fun _ =>
          keeps_bind (keeps_modify extended) fun _ => keeps_raise _
      | _ => exact keeps_raise _

section Housekeeping

variable (neutral : ∀ s g (e : Effect), I s g → ¬ e.attempting → ¬ e.saving →
  P.ok g e ∧ ∀ r, P.may g e r → I s (P.next g e r))

include neutral

theorem keeps_perform {e : Effect} (h : ¬ e.attempting) (h' : ¬ e.saving) :
    Keeps P I (perform e) :=
  keeps_of_uses (A := fun e => ¬ e.attempting ∧ ¬ e.saving) (uses_effect ⟨h, h'⟩)
    fun s g e hI h => neutral s g e hI h.1 h.2

theorem keeps_of_hosting {α : Type} {m : Service α} (h : Uses Effect.hosting m) : Keeps P I m :=
  keeps_of_uses h fun s g e hI h =>
    neutral s g e hI (e.not_attempting_of_hosting h) (e.not_saving_of_hosting h)

theorem keeps_coordinator {α : Type} {m : Service α} (h : Uses Effect.coordinating m) :
    Keeps P I m :=
  keeps_of_uses h fun s g e hI h =>
    neutral s g e hI (e.not_attempting_of_coordinating h) (e.not_saving_of_coordinating h)

theorem keeps_healthyProviders (providers : List Provider) :
    Keeps P I (healthyProviders providers) :=
  keeps_of_uses (uses_healthyProviders providers) fun s g e hI h => by
    obtain ⟨p, rfl⟩ := h
    exact neutral s g _ hI id id

theorem keeps_release (data : PaymentInput) (fingerprint : String) :
    Keeps P I (release cfg data fingerprint) := by
  refine keeps_bind keeps_get fun s => keeps_onlyIf ?_
  refine keeps_bind (keeps_attempt (keeps_coordinator neutral (cfg.coordinator.abort_uses _ _)))
    fun answer => ?_
  split
  · exact keeps_raise _
  · exact keeps_pure _

theorem keeps_replay (decision : IdempotencyDecision) : Keeps P I (replay decision) := by
  refine keeps_bind ?_ fun existing => ?_
  · unfold storedResult
    split
    · exact keeps_await (keeps_perform neutral id id)
    · exact keeps_pure _
  · cases existing with
    | some payment => exact keeps_pure _
    | none => exact keeps_raise _

/-- Up to the event and the payment it saves, a refund only performs housekeeping effects. -/
theorem keeps_refund_of (paymentId : Uuid) (amount : Option ℤ)
    (saves : ∀ (p : Payment) (r : Refund), Keeps P I do
      let event ← paymentEvent p .paymentRefunded p.status
      save cfg p [event]
      return r) : Keeps P I (refund cfg paymentId amount) := by
  refine keeps_bind (keeps_await (keeps_perform neutral id id)) fun _ =>
    keeps_ensure ?_ (keeps_perform neutral id id)
  refine keeps_bind (keeps_await (keeps_perform neutral id id)) fun found => ?_
  cases found with
  | none => exact keeps_raise _
  | some payment =>
    refine keeps_ite (keeps_raise _) (keeps_ite (keeps_raise _) ?_)
    split
    · exact keeps_raise _
    · exact keeps_bind (keeps_perform neutral id id) fun _ =>
        keeps_bind (keeps_await (keeps_perform neutral id id)) fun _ =>
        keeps_bind (keeps_of_hosting neutral uses_uuid4) fun _ =>
        keeps_bind (keeps_of_hosting neutral uses_now) fun _ =>
        keeps_bind (keeps_perform neutral id id) fun _ => saves _ _

section Create

variable (locals : ∀ s s' g, I s g → I s' g)
  (op : ∀ provider payment data, Keeps P I (operation cfg provider payment data))
  (done : ∀ data fingerprint payment last, last = .paymentSucceeded ∨ last = .paymentFailed →
    Keeps P I (finish cfg data fingerprint payment last))

include locals

/-- What comes before and after the events and the payment are saved is housekeeping. -/
theorem keeps_finish_of (data : PaymentInput) (fingerprint : String) (payment : Payment)
    (last : EventType) (saves : Keeps P I (do
      let events ← paymentEvents payment last
      save cfg payment events)) : Keeps P I (finish cfg data fingerprint payment last) := by
  refine keeps_bind (keeps_modify fun _ _ => locals _ _ _) fun _ => ?_
  have rest : Keeps P I (do
      cfg.coordinator.complete data.key fingerprint payment.id
      modify fun s => { s with claimed := false } : Service Unit) :=
    keeps_bind (keeps_coordinator neutral (cfg.coordinator.complete_uses _ _ _)) fun _ =>
      keeps_modify fun _ _ => locals _ _ _
  intro s g hI
  have saved := saves s g hI
  rw [wp_bind] at saved ⊢
  apply wp_mono saved
  intro r s g h
  cases r with
  | error x => exact h
  | ok events =>
    rw [orRaise_ok] at h
    rw [orRaise_ok, wp_bind]
    apply wp_mono h
    intro r s g h
    cases r with
    | error x => exact h
    | ok _ => exact rest s g h

include op done

theorem keeps_tryCandidate (data : PaymentInput) (fingerprint : String) (payment : Payment)
    (candidate : Provider) : Keeps P I (tryCandidate cfg data fingerprint payment candidate) :=
  keeps_bind (keeps_attemptProvider (fun _ _ _ => locals _ _ _) (fun _ _ => locals _ _ _)
      (op _ _ _) (keeps_perform neutral id id) fun _ => keeps_await (keeps_perform neutral id id))
    fun _ => keeps_bind (keeps_bind keeps_get fun _ => keeps_pure _) fun _ =>
      keeps_bind (done _ _ _ _ (.inl rfl)) fun _ => keeps_pure _

theorem keeps_tryCandidates (data : PaymentInput) (fingerprint : String) (payment : Payment)
    (candidates : List Provider) :
    Keeps P I (tryCandidates cfg data fingerprint payment candidates) := by
  induction candidates with
  | nil => exact keeps_pure _
  | cons candidate rest ih =>
    refine keeps_bind (keeps_attempt (keeps_tryCandidate neutral locals op done _ _ _ _))
      fun answer => ?_
    cases answer with
    | ok payment => exact keeps_pure _
    | error x =>
      cases x with
      | provider error =>
        exact keeps_bind (keeps_modify fun _ _ => locals _ _ _) fun _ =>
          keeps_ite (keeps_pure _) ih
      | _ => exact keeps_raise _

theorem keeps_orchestrate (data : PaymentInput) (fingerprint : String) :
    Keeps P I (orchestrate cfg data fingerprint) := by
  refine keeps_bind (keeps_of_hosting neutral (uses_newPayment _ _)) fun payment =>
    keeps_bind (keeps_modify fun _ _ => locals _ _ _) fun _ =>
    keeps_bind (keeps_healthyProviders neutral _) fun _ =>
    keeps_bind (keeps_await (keeps_perform neutral id id)) fun _ =>
    keeps_bind (keeps_tryCandidates neutral locals op done _ _ _ _) fun completed => ?_
  cases completed with
  | some payment => exact keeps_pure _
  | none =>
    refine keeps_bind (keeps_bind keeps_get fun _ => keeps_pure _) fun _ =>
      keeps_bind (done _ _ _ _ (.inr rfl)) fun _ => keeps_bind keeps_get fun s => ?_
    split
    · exact keeps_raise _
    · exact keeps_raise _

theorem keeps_createClaimed (data : PaymentInput) (fingerprint : String) :
    Keeps P I (createClaimed cfg data fingerprint) := by
  refine keeps_bind (keeps_await (keeps_perform neutral id id)) fun existing => ?_
  cases existing with
  | some payment =>
    exact keeps_ite (keeps_raise _)
      (keeps_bind (keeps_coordinator neutral (cfg.coordinator.complete_uses _ _ _)) fun _ =>
        keeps_bind (keeps_modify fun _ _ => locals _ _ _) fun _ => keeps_pure _)
  | none => exact keeps_orchestrate neutral locals op done _ _

/-- Outside its attempts at providers and its saves, `create` only performs housekeeping effects. -/
theorem keeps_create_of (data : PaymentInput) : Keeps P I (create cfg data) := by
  refine keeps_bind (keeps_coordinator neutral (cfg.coordinator.acquire_uses _ _))
    fun decision => ?_
  split
  · exact keeps_raise _
  · exact keeps_replay neutral _
  · refine keeps_bind (keeps_modify fun _ _ => locals _ _ _) fun _ =>
      keeps_bind (keeps_attempt (keeps_createClaimed neutral locals op done _ _)) fun answer => ?_
    cases answer with
    | ok payment => exact keeps_pure _
    | error x => exact keeps_bind (keeps_release neutral _ _) fun _ => keeps_raise _

end Create

end Housekeeping

section Saving

variable (neutral : ∀ s g (e : Effect), I s g → ¬ e.attempting →
  P.ok g e ∧ ∀ r, P.may g e r → I s (P.next g e r))

include neutral

theorem neutral_unsaving (s : Locals) (g : γ) (e : Effect) (hI : I s g) (h : ¬ e.attempting)
    (_ : ¬ e.saving) : P.ok g e ∧ ∀ r, P.may g e r → I s (P.next g e r) :=
  neutral s g e hI h

theorem keeps_save (payment : Payment) (events : List EventEnvelope) :
    Keeps P I (save cfg payment events) :=
  keeps_of_uses (uses_mono Effect.not_attempting_of_saving (uses_save cfg payment events)) neutral

theorem keeps_refund (paymentId : Uuid) (amount : Option ℤ) :
    Keeps P I (refund cfg paymentId amount) :=
  keeps_refund_of (neutral_unsaving neutral) paymentId amount fun _ r =>
    keeps_bind (keeps_of_hosting (neutral_unsaving neutral) (uses_newEvent _ _ _ _ _)) fun _ =>
      keeps_bind (keeps_save neutral _ _) fun _ => keeps_pure r

variable (locals : ∀ s s' g, I s g → I s' g)

include locals

theorem keeps_finish (data : PaymentInput) (fingerprint : String) (payment : Payment)
    (last : EventType) : Keeps P I (finish cfg data fingerprint payment last) :=
  keeps_finish_of (neutral_unsaving neutral) locals data fingerprint payment last
    (keeps_bind (keeps_of_hosting (neutral_unsaving neutral) (uses_paymentEvents _ _)) fun _ =>
      keeps_save neutral _ _)

/-- Outside its attempts at providers, `create` only performs housekeeping effects. -/
theorem keeps_create
    (op : ∀ provider payment data, Keeps P I (operation cfg provider payment data))
    (data : PaymentInput) : Keeps P I (create cfg data) :=
  keeps_create_of (neutral_unsaving neutral) locals op
    (fun data fingerprint payment last _ => keeps_finish neutral locals data fingerprint payment last)
    data

end Saving

end Keeps

end Service

end PySwitch
