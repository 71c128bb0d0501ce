import PySwitch.Machine
import PySwitch.ServiceFootprint

namespace PySwitch.Booking

open Async Program Service

/-- The reference of the latest payment a provider completed, and the provider and the reference
of the latest one that was recorded. -/
structure Stage where
  reference : String := ""
  recorded : Option (Provider × String) := none

def Stage.next (g : Stage) : (e : Effect) → e.Reply → Stage
  | .provider (.finishPayment _ _), .ok result => { g with reference := result.reference }
  | .stats (.finishRequest p true _ _), _ => { g with recorded := some (p, g.reference) }
  | _, _ => g

/-- The fields that the payment for a request has while providers are tried. -/
structure Shaped (data : PaymentInput) (fingerprint : String)
    (recorded : Option (Provider × String)) (p : Payment) : Prop where
  merchantId : p.merchantId = data.merchantId
  amount : p.amount = data.amount
  currency : p.currency = data.currency
  paymentMethodType : p.paymentMethodType = data.paymentMethodType
  idempotencyKey : p.idempotencyKey = data.idempotencyKey
  requestFingerprint : p.requestFingerprint = fingerprint
  provider : p.provider = recorded.map Prod.fst
  providerReference : p.providerReference = recorded.map Prod.snd
  refundedAmount : p.refundedAmount = 0
  refunds : p.refunds = []

/-- The payment that an effect saves. -/
def saved : Effect → Option Payment
  | .store (.save p) => some p
  | .store (.saveWithEvents p _) => some p
  | _ => none

variable (data : PaymentInput) (fingerprint : String)

def ok (g : Stage) : Effect → Prop
  | .store (.save p) => Shaped data fingerprint g.recorded p
  | .store (.saveWithEvents p _) => Shaped data fingerprint g.recorded p
  | _ => True

def protocol : Protocol Effect Effect.Reply Stage :=
  ⟨ok data fingerprint, fun _ _ _ => True, Stage.next⟩

/-- The effects that neither save a payment nor book one. -/
def calm : Effect → Prop
  | .provider (.finishPayment _ _) => False
  | .stats (.finishRequest _ true _ _) => False
  | .store (.save _) => False
  | .store (.saveWithEvents _ _) => False
  | _ => True

variable {data fingerprint} {cfg : Config} {s : Locals} {g : Stage}

theorem calm_neutral (e : Effect) (h : calm e) :
    (protocol data fingerprint).ok g e ∧ ∀ r, (protocol data fingerprint).next g e r = g := by
  cases e with
  | provider e =>
    cases e with
    | finishPayment p id => exact h.elim
    | _ => exact ⟨trivial, fun _ => rfl⟩
  | stats e =>
    cases e with
    | finishRequest p success latency code =>
      cases success with
      | false => exact ⟨trivial, fun _ => rfl⟩
      | true => exact h.elim
    | _ => exact ⟨trivial, fun _ => rfl⟩
  | store e =>
    cases e with
    | save p => exact h.elim
    | saveWithEvents p events => exact h.elim
    | _ => exact ⟨trivial, fun _ => rfl⟩
  | _ => exact ⟨trivial, fun _ => rfl⟩

theorem keeps_calm {α : Type} {I : Locals → Stage → Prop} {A : Effect → Prop} {m : Service α}
    (h : Uses A m) (hA : ∀ e, A e → calm e) : Keeps (protocol data fingerprint) I m :=
  keeps_of_uses h fun s g e hI he => by
    have neutral : (protocol data fingerprint).ok g e ∧ ∀ r, (protocol data fingerprint).next g e r = g :=
      calm_neutral e (hA e he)
    exact ⟨neutral.1, fun r _ => by rwa [neutral.2 r]⟩

theorem keeps_perform {I : Locals → Stage → Prop} {e : Effect} (h : calm e) :
    Keeps (protocol data fingerprint) I (perform e) :=
  keeps_calm (A := calm) (uses_effect h) fun _ h => h

theorem calm_of_recording (e : Effect) (h : e.recording) : calm e := by
  cases e with
  | host e => trivial
  | store e => cases e <;> first | exact h.elim | trivial
  | _ => exact h.elim

theorem calm_of_hosting (e : Effect) (h : e.hosting) : calm e :=
  calm_of_recording e (Effect.recording_of_hosting e h)

theorem calm_of_coordinating (e : Effect) (h : e.coordinating) : calm e := by
  cases e with
  | coordinator e => trivial
  | redis e => trivial
  | _ => exact h.elim

section Visit

variable {I : Locals → Stage → Prop} (provider : Provider)

theorem keeps_hosting {α : Type} {m : Service α} (h : Uses Effect.hosting m) :
    Keeps (protocol data fingerprint) I m := keeps_calm h calm_of_hosting

theorem keeps_record (previous current : CircuitState) :
    Keeps (protocol data fingerprint) I (recordCircuitTransition cfg provider previous current) :=
  keeps_calm (uses_recordCircuitTransition _ _ _ _) calm_of_recording

theorem keeps_allowProvider :
    Keeps (protocol data fingerprint) I (allowProvider cfg provider) :=
  keeps_bind (keeps_perform trivial) fun _ =>
    keeps_bind (keeps_onlyIf (keeps_record provider _ _)) fun _ => keeps_pure _

theorem keeps_recordSuccess :
    Keeps (protocol data fingerprint) I (recordSuccess cfg provider) :=
  keeps_bind (keeps_perform trivial) fun _ => keeps_onlyIf (keeps_record provider _ _)

theorem keeps_recordFailure :
    Keeps (protocol data fingerprint) I (recordFailure cfg provider) :=
  keeps_bind (keeps_perform trivial) fun _ => keeps_onlyIf (keeps_record provider _ _)

/-- The attempts of a call have no part in what is booked. -/
def Same (s : Locals) (g : Stage) (s' : Locals) (g' : Stage) : Prop :=
  s'.payment = s.payment ∧ g'.recorded = g.recorded

theorem keeps_appendAttempt (attemptNumber : ℕ) (result : AttemptResult) (latencyMs : ℚ)
    (errorCode : Option String) (hI : ∀ s g l, I s g → I { s with attempts := l } g) :
    Keeps (protocol data fingerprint) I
      (appendAttempt provider attemptNumber result latencyMs errorCode) :=
  keeps_bind (keeps_hosting uses_now) fun _ => keeps_modify fun s g h => hI s g _ h

theorem keeps_afterError (attemptNumber : ℕ) (started : Seconds) (x : Exn)
    (hI : ∀ s g l, I s g → I { s with attempts := l } g) :
    Keeps (protocol data fingerprint) I (afterError cfg provider attemptNumber started x) := by
  have latency : Keeps (protocol data fingerprint) I (latencySince started) :=
    keeps_hosting (uses_latencySince started)
  cases x with
  | provider error =>
    exact keeps_bind latency fun _ => keeps_bind (keeps_perform trivial) fun _ =>
      keeps_bind (keeps_recordFailure provider) fun _ =>
      keeps_bind (keeps_onlyIf (keeps_perform trivial)) fun _ =>
      keeps_appendAttempt provider _ _ _ _ hI
  | cancelled => exact keeps_pure _
  | _ => exact keeps_bind latency fun _ => keeps_perform trivial

/-- What a provider answers is the reference that is recorded next. -/
def Answered (s : Locals) (g : Stage) (r : Except Exn ProviderPaymentResult) (s' : Locals)
    (g' : Stage) : Prop :=
  s' = s ∧ g'.recorded = g.recorded ∧ ∀ result, r = .ok result → g'.reference = result.reference

theorem createPayment_answered (payment : Payment) :
    wp (protocol data fingerprint) (createPayment provider payment data) (Answered s g) s g := by
  simp only [createPayment, perform, wp_bind, wp_effect, orRaise_ok, wp_await]
  refine ⟨trivial, fun _ _ => ⟨trivial, fun answer _ => ?_⟩⟩
  cases answer with
  | error x => exact ⟨rfl, rfl, nofun⟩
  | ok result =>
    refine ⟨rfl, rfl, fun result' same => ?_⟩
    cases same
    rfl

theorem callProvider_answered (payment : Payment) :
    wp (protocol data fingerprint) (callProvider provider payment data) (Answered s g) s g := by
  simp only [callProvider, wp_bind, perform, wp_effect]
  refine ⟨trivial, fun semaphore _ => ?_⟩
  cases semaphore with
  | none => exact createPayment_answered provider payment
  | some n =>
    simp only [orRaise_ok, wp_bind, wp_await, wp_effect]
    refine ⟨trivial, fun r _ => ?_⟩
    cases r with
    | error x => exact ⟨rfl, rfl, nofun⟩
    | ok u =>
      simp only [orRaise_ok, wp_ensure]
      apply wp_mono (createPayment_answered provider payment)
      intro r s' g' h
      exact ⟨trivial, fun _ _ => h⟩

/-- A visit that returns has recorded the provider with the reference it returns. -/
def Visited (provider : Provider) (s : Locals) (g : Stage) (r : Except Exn String) (s' : Locals)
    (g' : Stage) : Prop :=
  s'.payment = s.payment ∧ match r with
    | .ok reference => g'.recorded = some (provider, reference)
    | .error _ => g'.recorded = g.recorded

/-- Once a provider has answered, it is recorded before the call returns. -/
theorem settle_visited (attemptNumber : ℕ) (started : Seconds) (result : ProviderPaymentResult)
    {s₁ : Locals} {g₁ : Stage} (same : Same s g s₁ g₁) (answered : g₁.reference = result.reference) :
    wp (protocol data fingerprint) (do
        recordSuccess cfg provider
        let latencyMs ← latencySince started
        perform (.stats (.finishRequest provider true latencyMs none))
        appendAttempt provider attemptNumber .succeeded latencyMs none
        return result)
      (fun r => Visited provider s g (r.map ProviderPaymentResult.reference)) s₁ g₁ := by
  let I (s' : Locals) (g' : Stage) : Prop := Same s g s' g' ∧ g'.reference = result.reference
  let J (s' : Locals) (g' : Stage) : Prop :=
    s'.payment = s.payment ∧ g'.recorded = some (provider, result.reference)
  refine wp_through (I := I) (keeps_recordSuccess provider) ⟨same, answered⟩
    (fun _ _ _ h => h.1) fun _ s₂ g₂ h₂ => ?_
  refine wp_through (I := I) (keeps_hosting (uses_latencySince started)) h₂
    (fun _ _ _ h => h.1) fun latencyMs s₃ g₃ h₃ => ?_
  have booked : J s₃ (g₃.next (.stats (.finishRequest provider true latencyMs none)) ()) :=
    ⟨h₃.1.1, congrArg (fun reference => some (provider, reference)) h₃.2⟩
  rw [wp_bind, wp_effect]
  refine ⟨trivial, fun _ _ => ?_⟩
  simp only [orRaise_ok, appendAttempt, now, perform, wp_bind, wp_effect, wp_modify, wp_pure]
  exact ⟨trivial, fun _ _ => booked⟩

theorem operation_visited (payment : Payment) :
    wp (protocol data fingerprint) (operation cfg provider payment data)
      (fun r => Visited provider s g (r.map ProviderPaymentResult.reference)) s g := by
  have same (s' : Locals) (g' : Stage) (l : List PaymentAttempt) (h : Same s g s' g') :
      Same s g { s' with attempts := l } g' := h
  unfold operation
  refine wp_through (I := Same s g) keeps_get ⟨rfl, rfl⟩ (fun _ _ _ h => h) fun before s₁ g₁ h₁ => ?_
  refine wp_through (I := Same s g) (keeps_allowProvider provider) h₁ (fun _ _ _ h => h)
    fun allowed s₂ g₂ h₂ => ?_
  cases allowed with
  | false => exact h₂
  | true =>
    refine wp_through (I := Same s g) (keeps_hosting uses_now) h₂ (fun _ _ _ h => h)
      fun started s₃ g₃ h₃ => ?_
    refine wp_through (I := Same s g) (keeps_perform trivial) h₃ (fun _ _ _ h => h)
      fun _ s₄ g₄ h₄ => ?_
    rw [wp_bind, wp_attempt]
    apply wp_mono (callProvider_answered provider payment)
    rintro r s₅ g₅ ⟨rfl, recorded, answered⟩
    have h₅ : Same s g s₅ g₅ := ⟨h₄.1, recorded.trans h₄.2⟩
    cases r with
    | ok result => exact settle_visited provider _ started result h₅ (answered result rfl)
    | error x =>
      rw [orRaise_ok]
      apply wp_through (keeps_afterError provider _ started x same) h₅
      · exact fun _ _ _ h => h
      · exact fun _ _ _ h => h

theorem retryFrom_visited (payment : Payment) (lastError : Option ProviderError)
    (attempt remaining : ℕ) :
    wp (protocol data fingerprint)
      (retryFrom (operation cfg provider payment data) cfg.retryPolicy lastError attempt remaining)
      (fun r => Visited provider s g (r.map fun a => a.1.reference)) s g := by
  induction remaining generalizing s g lastError attempt with
  | zero => exact ⟨rfl, rfl⟩
  | succ remaining ih =>
    simp only [retryFrom, wp_bind, wp_attempt]
    apply wp_mono (operation_visited provider payment)
    intro r s₁ g₁ h₁
    cases r with
    | ok result => exact h₁
    | error x =>
      cases x with
      | provider error =>
        simp only [orRaise_ok]
        split
        · exact h₁
        · have random : Keeps (protocol data fingerprint) (Same s g) (perform (.host .random)) :=
            keeps_perform trivial
          have sleeps (delay : Seconds) :
              Keeps (protocol data fingerprint) (Same s g) (Service.sleep delay) :=
            keeps_await (keeps_perform trivial)
          apply wp_through (keeps_delayFor _ random attempt) h₁ (fun _ _ _ h => h)
          intro delay s₂ g₂ h₂
          apply wp_through (sleeps _) h₂ (fun _ _ _ h => h)
          intro _ s₃ g₃ h₃
          apply wp_mono (ih _ _)
          rintro r s' g' ⟨payment, recorded⟩
          refine ⟨payment.trans h₃.1, ?_⟩
          cases r with
          | ok a => exact recorded
          | error x => exact recorded.trans h₃.2
      | _ => exact h₁

end Visit

/-- The payment of the call has its shape. -/
def Drafted (data : PaymentInput) (fingerprint : String) (recorded : Option (Provider × String))
    (s : Locals) : Prop :=
  ∃ p, s.payment = some p ∧ Shaped data fingerprint recorded p

variable {recorded : Option (Provider × String)}

theorem Shaped.attempts {p : Payment} (h : Shaped data fingerprint recorded p)
    (attempts : List PaymentAttempt) : Shaped data fingerprint recorded { p with attempts } :=
  ⟨h.merchantId, h.amount, h.currency, h.paymentMethodType, h.idempotencyKey, h.requestFingerprint,
    h.provider, h.providerReference, h.refundedAmount, h.refunds⟩

theorem Shaped.ended {p : Payment} (h : Shaped data fingerprint recorded p) (status : PaymentStatus) :
    Shaped data fingerprint recorded { p with status } :=
  ⟨h.merchantId, h.amount, h.currency, h.paymentMethodType, h.idempotencyKey, h.requestFingerprint,
    h.provider, h.providerReference, h.refundedAmount, h.refunds⟩

/-- The payment is given the provider and the reference it was completed with. -/
theorem Shaped.completed {p : Payment} (h : Shaped data fingerprint recorded p)
    (status : PaymentStatus) (provider : Provider) (reference : String) :
    Shaped data fingerprint (some (provider, reference))
      { p with status, providerReference := some reference, provider := some provider } :=
  ⟨h.merchantId, h.amount, h.currency, h.paymentMethodType, h.idempotencyKey, h.requestFingerprint,
    rfl, rfl, h.refundedAmount, h.refunds⟩

theorem Drafted.extended (h : Drafted data fingerprint recorded s) :
    Drafted data fingerprint recorded (extendAttempts s) := by
  obtain ⟨p, hp, shaped⟩ := h
  exact ⟨{ p with attempts := p.attempts ++ s.attempts }, by rw [extendAttempts, hp]; rfl,
    shaped.attempts _⟩

theorem Drafted.same {s' : Locals} (h : Drafted data fingerprint recorded s)
    (same : s'.payment = s.payment) : Drafted data fingerprint recorded s' := by
  obtain ⟨p, hp, shaped⟩ := h
  exact ⟨p, same.trans hp, shaped⟩

theorem attemptProvider_drafted (payment : Payment) (provider : Provider)
    (drafted : Drafted data fingerprint g.recorded s) :
    wp (protocol data fingerprint) (attemptProvider cfg payment provider data)
      (fun r s' g' => Drafted data fingerprint g.recorded s' ∧ match r with
        | .ok result => g'.recorded = some (provider, result.reference)
        | .error _ => g'.recorded = g.recorded) s g := by
  simp only [attemptProvider, runWithRetry, wp_bind, wp_modify, wp_attempt, orRaise_ok]
  apply wp_mono (retryFrom_visited (s := { s with attempts := [] }) provider payment none 0 _)
  rintro r s' g' ⟨same, recorded⟩
  have kept : Drafted data fingerprint g.recorded s' := drafted.same same
  cases r with
  | ok result => exact ⟨kept.extended, recorded⟩
  | error x =>
    cases x with
    | provider error => exact ⟨Drafted.extended (kept.same rfl), recorded⟩
    | _ => exact ⟨kept, recorded⟩

theorem save_drafted (payment : Payment) (events : List EventEnvelope)
    (drafted : Drafted data fingerprint g.recorded s)
    (shaped : Shaped data fingerprint g.recorded payment) :
    wp (protocol data fingerprint) (save cfg payment events)
      (fun _ s' g' => Drafted data fingerprint g'.recorded s') s g := by
  unfold save
  split
  · simp only [perform, wp_await, wp_effect]
    refine ⟨shaped, fun r _ => ?_⟩
    cases r <;> exact drafted
  · simp only [perform, wp_bind, wp_await, wp_effect]
    refine ⟨shaped, fun r _ => ?_⟩
    cases r with
    | error x => exact drafted
    | ok u =>
      have appended : Keeps (protocol data fingerprint)
          (fun s' g' => Drafted data fingerprint g'.recorded s')
          (onlyIf (events ≠ [] ∧ cfg.outbox ≠ .absent)
            (await (perform (.store (.append events))))) :=
        keeps_onlyIf (keeps_await (keeps_perform trivial))
      exact appended s g drafted

theorem finish_drafted {payment : Payment} (shaped : Shaped data fingerprint g.recorded payment)
    (last : EventType) :
    wp (protocol data fingerprint) (finish cfg data fingerprint payment last)
      (fun _ s' g' => Drafted data fingerprint g'.recorded s') s g := by
  let I (s' : Locals) (g' : Stage) : Prop :=
    Drafted data fingerprint g'.recorded s' ∧ g'.recorded = g.recorded
  unfold finish
  rw [wp_bind, wp_modify, orRaise_ok]
  refine wp_through (I := I) (keeps_hosting (uses_paymentEvents _ _))
    ⟨⟨payment, rfl, shaped⟩, rfl⟩ (fun _ _ _ h => h.1) fun events s₁ g₁ h₁ => ?_
  have completes : Keeps (protocol data fingerprint)
      (fun s' g' => Drafted data fingerprint g'.recorded s') (do
        cfg.coordinator.complete data.key fingerprint payment.id
        modify fun s => { s with claimed := false }) :=
    keeps_bind (keeps_calm (cfg.coordinator.complete_uses _ _ _) calm_of_coordinating) fun _ =>
      keeps_modify fun _ _ h => h.same rfl
  rw [wp_bind]
  apply wp_mono (save_drafted payment events h₁.1 (h₁.2 ▸ shaped))
  intro r s₂ g₂ h₂
  cases r with
  | error x => exact h₂
  | ok u => exact completes s₂ g₂ h₂

theorem tryCandidate_drafted (payment : Payment) (candidate : Provider)
    (drafted : Drafted data fingerprint g.recorded s) :
    wp (protocol data fingerprint) (tryCandidate cfg data fingerprint payment candidate)
      (fun _ s' g' => Drafted data fingerprint g'.recorded s') s g := by
  unfold tryCandidate
  rw [wp_bind]
  apply wp_mono (attemptProvider_drafted payment candidate drafted)
  rintro r s' g' ⟨⟨p, hp, shaped⟩, recorded⟩
  cases r with
  | error x =>
    have same : g'.recorded = g.recorded := recorded
    exact ⟨p, hp, same ▸ shaped⟩
  | ok result =>
    simp only [orRaise_ok, current, wp_bind, wp_get, wp_pure, hp, Option.getD_some]
    have completed := shaped.completed .succeeded candidate result.reference
    rw [← recorded] at completed
    apply wp_mono (finish_drafted completed .paymentSucceeded)
    intro r s'' g'' h
    cases r <;> exact h

theorem tryCandidates_drafted (payment : Payment) (candidates : List Provider) :
    Keeps (protocol data fingerprint) (fun s g => Drafted data fingerprint g.recorded s)
      (tryCandidates cfg data fingerprint payment candidates) := by
  induction candidates with
  | nil => exact keeps_pure _
  | cons candidate rest ih =>
    have tried : Keeps (protocol data fingerprint)
        (fun s g => Drafted data fingerprint g.recorded s)
        (tryCandidate cfg data fingerprint payment candidate) :=
      fun s g h => tryCandidate_drafted payment candidate h
    apply keeps_bind (keeps_attempt tried)
    intro answer
    cases answer with
    | ok payment => exact keeps_pure _
    | error x =>
      cases x with
      | provider error =>
        exact keeps_bind (keeps_modify fun _ _ h => h.same rfl) fun _ =>
          keeps_ite (keeps_pure _) ih
      | _ => exact keeps_raise _

theorem newPayment_shaped :
    wp (protocol data fingerprint) (newPayment data fingerprint) (fun r s' g' =>
      s' = s ∧ g' = g ∧ ∃ p, r = .ok p ∧ Shaped data fingerprint none p) s g := by
  simp only [newPayment, now, uuid4, perform, wp_bind, wp_effect, orRaise_ok, wp_pure]
  refine ⟨trivial, fun id _ => ⟨trivial, fun createdAt _ => ⟨trivial, fun updatedAt _ => ?_⟩⟩⟩
  exact ⟨trivial, rfl, _, rfl, rfl, rfl, rfl, rfl, rfl, rfl, rfl, rfl, rfl, rfl⟩

/-- Whatever its effects are answered with, the call saves no payment of another shape. -/
def Safe {α : Type} (data : PaymentInput) (fingerprint : String) (m : Service α) (s : Locals)
    (g : Stage) : Prop :=
  wp (protocol data fingerprint) m (fun _ _ _ => True) s g

theorem safe_of_keeps {α : Type} {I : Locals → Stage → Prop} {m : Service α}
    (h : Keeps (protocol data fingerprint) I m) (first : I s g) : Safe data fingerprint m s g :=
  wp_mono (h s g first) fun _ _ _ _ => trivial

theorem orchestrate_safe (fresh : g.recorded = none) :
    Safe data fingerprint (orchestrate cfg data fingerprint) s g := by
  let I (s : Locals) (g : Stage) : Prop := Drafted data fingerprint g.recorded s
  unfold Safe orchestrate
  rw [wp_bind]
  apply wp_mono newPayment_shaped
  rintro _ s₁ g₁ ⟨rfl, rfl, p, rfl, shaped⟩
  rw [orRaise_ok, wp_bind, wp_modify, orRaise_ok]
  have calm_health (e : Effect) (h : ∃ q, e = .provider (.healthCheck q)) : calm e := by
    obtain ⟨q, rfl⟩ := h
    trivial
  have drafted : I { s₁ with payment := some p } g₁ := ⟨p, rfl, fresh ▸ shaped⟩
  refine wp_through (I := I) (keeps_calm (uses_healthyProviders _) calm_health) drafted
    (fun _ _ _ _ => trivial) fun healthy s₂ g₂ h₂ => ?_
  refine wp_through (I := I) (keeps_await (keeps_perform trivial)) h₂
    (fun _ _ _ _ => trivial) fun provider s₃ g₃ h₃ => ?_
  refine wp_through (I := I) (tryCandidates_drafted p _) h₃
    (fun _ _ _ _ => trivial) fun completed s₄ g₄ h₄ => ?_
  cases completed with
  | some payment => trivial
  | none =>
    obtain ⟨q, hq, shaped⟩ := h₄
    simp only [current, wp_bind, wp_get, wp_pure, orRaise_ok, hq, Option.getD_some]
    apply wp_mono (finish_drafted (shaped.ended .failed) .paymentFailed)
    intro r s₅ g₅ _
    cases r with
    | error x => trivial
    | ok u =>
      rw [orRaise_ok, wp_bind, wp_get, orRaise_ok]
      cases s₅.lastError <;> trivial

theorem createClaimed_safe {I : Locals → Stage → Prop} (hI : ∀ s g, I s g → g.recorded = none)
    (first : I s g) (claimed : ∀ s g b, I s g → I { s with claimed := b } g) :
    Safe data fingerprint (createClaimed cfg data fingerprint) s g := by
  unfold Safe createClaimed
  refine wp_through (I := I) (keeps_await (keeps_perform trivial)) first (fun _ _ _ _ => trivial)
    fun existing s₁ g₁ h₁ => ?_
  cases existing with
  | none => exact orchestrate_safe (hI s₁ g₁ h₁)
  | some existing =>
    apply safe_of_keeps (I := I) _ h₁
    exact keeps_ite (keeps_raise _)
      (keeps_bind (keeps_calm (cfg.coordinator.complete_uses _ _ _) calm_of_coordinating) fun _ =>
        keeps_bind (keeps_modify fun s g h => claimed s g _ h) fun _ => keeps_pure _)

theorem keeps_release {I : Locals → Stage → Prop} :
    Keeps (protocol data fingerprint) I (release cfg data fingerprint) := by
  apply keeps_bind keeps_get
  intro s
  apply keeps_onlyIf
  apply keeps_bind (keeps_attempt (keeps_calm (cfg.coordinator.abort_uses _ _) calm_of_coordinating))
  intro answer
  split
  · exact keeps_raise _
  · exact keeps_pure _

theorem keeps_replay {I : Locals → Stage → Prop} (decision : IdempotencyDecision) :
    Keeps (protocol data fingerprint) I (replay decision) := by
  apply keeps_bind
  · unfold storedResult
    split
    · exact keeps_await (keeps_perform trivial)
    · exact keeps_pure _
  · intro existing
    cases existing with
    | some payment => exact keeps_pure _
    | none => exact keeps_raise _

theorem create_safe : Safe data (requestFingerprint cfg.sha256 data) (create cfg data) s {} := by
  let I (_ : Locals) (g : Stage) : Prop := g.recorded = none
  unfold Safe create
  refine wp_through (I := I) (keeps_calm (cfg.coordinator.acquire_uses _ _) calm_of_coordinating) rfl
    (fun _ _ _ _ => trivial) fun decision s₁ g₁ h₁ => ?_
  split
  · trivial
  · exact safe_of_keeps (I := I) (keeps_replay _) h₁
  · rw [wp_bind, wp_modify, orRaise_ok, wp_bind, wp_attempt]
    apply wp_mono (createClaimed_safe (I := I) (fun _ _ h => h) h₁ fun _ _ _ h => h)
    intro r s₂ g₂ _
    cases r with
    | ok payment => trivial
    | error x =>
      exact safe_of_keeps (I := fun _ _ => True)
        (keeps_bind keeps_release fun _ => keeps_raise x) trivial

/-- The provider and the reference that were recorded last in what a call was answered. -/
def lastRecorded (trace : List ((e : Effect) × e.Reply)) : Option (Provider × String) :=
  (trace.foldl (fun g ev => g.next ev.1 ev.2) ({} : Stage)).recorded

theorem shaped_of_ok {e : Effect} {p : Payment} (h : ok data fingerprint g e)
    (saves : saved e = some p) : Shaped data fingerprint g.recorded p := by
  cases e with
  | store e =>
    cases e with
    | save q =>
      obtain rfl := Option.some.inj saves
      exact h
    | saveWithEvents q events =>
      obtain rfl := Option.some.inj saves
      exact h
    | _ => cases saves
  | _ => cases saves

/-- A call that comes to save a payment saves one of the request's shape. -/
theorem saved_shaped {trace : List ((e : Effect) × e.Reply)} {e : Effect}
    {k : e.Reply → Coroutine Effect Effect.Reply (Except Exn Result)} {p : Payment}
    (reached : (((Call.create data).run cfg).start {}).Leads trace (.perform e k))
    (saves : saved e = some p) :
    Shaped data (requestFingerprint cfg.sha256 data) (lastRecorded trace) p := by
  have safe : Safe data (requestFingerprint cfg.sha256 data) ((Call.create data).run cfg) {} {} := by
    unfold Safe Call.run
    rw [wp_bind]
    apply wp_mono create_safe
    intro r s g _
    cases r <;> trivial
  have kept := (start_follows (Q := fun _ _ => True) safe).leads (fun _ _ _ => trivial) reached
  exact shaped_of_ok kept.1 saves

end PySwitch.Booking
