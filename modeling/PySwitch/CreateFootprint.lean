import PySwitch.ServiceFootprint

namespace PySwitch

open Async Program

/-- The effects of `create` apart from those of its coordinator. -/
def Effect.creating : Effect → Prop
  | .host _ => True
  | .circuit _ => True
  | .stats _ => True
  | .semaphore _ => True
  | .provider (.healthCheck _) => True
  | .provider (.choose _) => True
  | .provider (.startPayment _ _ _ _ _) => True
  | .provider (.finishPayment _ _) => True
  | .store _ => True
  | _ => False

theorem Effect.creating_of_trying {e : Effect} (h : e.trying ∨ e.recording) : e.creating := by
  cases e with
  | provider e => cases e <;> first | trivial | exact (h.elim id id).elim
  | refundLock e => exact h.elim id id
  | coordinator e => exact h.elim id id
  | redis e => exact h.elim id id
  | _ => trivial

theorem Effect.creating_of_hosting (e : Effect) (h : e.hosting) : e.creating :=
  creating_of_trying (.inr (recording_of_hosting e h))

theorem Effect.creating_of_saving (e : Effect) (h : e.saving) : e.creating := by
  cases e with
  | store e => trivial
  | _ => exact h.elim

/-- The effects a coordinator is made of. -/
structure Coordinator.Within (A : Effect → Prop) (c : Coordinator) : Prop where
  acquire : ∀ key fingerprint, Uses A (c.acquire key fingerprint)
  complete : ∀ key fingerprint paymentId, Uses A (c.complete key fingerprint paymentId)
  abort : ∀ key fingerprint, Uses A (c.abort key fingerprint)

theorem Coordinator.within_coordinating (c : Coordinator) : c.Within Effect.coordinating :=
  ⟨c.acquire_uses, c.complete_uses, c.abort_uses⟩

/-- The coordinator of a process sends nothing to Redis. -/
theorem Coordinator.direct_within : direct.Within fun e => ∃ a, e = .coordinator a where
  acquire _ _ := uses_await (uses_effect ⟨_, rfl⟩)
  complete _ _ _ := uses_await (uses_effect ⟨_, rfl⟩)
  abort _ _ := uses_await (uses_effect ⟨_, rfl⟩)

namespace Service

variable {γ : Type} {P : Protocol Effect Effect.Reply γ} {J : γ → Prop} {A : Effect → Prop}
  {cfg : Config} (neutral : ∀ g (e : Effect), J g → A e ∨ e.creating →
    P.ok g e ∧ ∀ r, P.may g e r → J (P.next g e r))

theorem keeps_assign (f : Locals → Locals) :
    Keeps P (fun _ g => J g) (Program.modify f : Service Unit) :=
  keeps_modify fun _ _ hJ => hJ

section Creating

variable (creating : ∀ g (e : Effect), J g → e.creating →
  P.ok g e ∧ ∀ r, P.may g e r → J (P.next g e r))

include creating

theorem keeps_creating {α : Type} {B : Effect → Prop} {m : Service α} (h : Uses B m)
    (hB : ∀ e, B e → e.creating) : Keeps P (fun _ g => J g) m :=
  keeps_of_uses h fun _ g e hJ he => creating g e hJ (hB e he)

theorem creating_perform {e : Effect} (h : e.creating) :
    Keeps P (fun _ g => J g) (perform e) :=
  keeps_creating creating (uses_effect (A := Effect.creating) h) fun _ => id

theorem creating_visit (payment : Payment) (provider : Provider) (data : PaymentInput) :
    Keeps P (fun _ g => J g) (attemptProvider cfg payment provider data) := by
  have trying (s : Locals) (g : γ) (e : Effect) (hJ : J g) (h : e.trying ∨ e.recording) :=
    creating g e hJ (Effect.creating_of_trying h)
  apply keeps_attemptProvider
  · exact fun _ _ _ hJ => hJ
  · exact fun _ _ hJ => hJ
  · apply keeps_operation
    · exact neutral_hosting trying
    · exact keeps_recordCircuitTransition trying
    · exact fun _ _ _ hJ => hJ
    · exact fun _ g p paymentId hJ => creating g _ hJ trivial
  · exact creating_perform creating trivial
  · exact fun _ => keeps_await (creating_perform creating trivial)

end Creating

variable (within : cfg.coordinator.Within A)

include neutral

theorem keeps_coordinating {α : Type} {m : Service α} (h : Uses A m) :
    Keeps P (fun _ g => J g) m :=
  keeps_of_uses h fun _ g e hJ he => neutral g e hJ (.inl he)

theorem keeps_perform_creating {e : Effect} (h : e.creating) :
    Keeps P (fun _ g => J g) (perform e) :=
  creating_perform (fun g e hJ h => neutral g e hJ (.inr h)) h

include within

theorem finish_keeps (data : PaymentInput) (fingerprint : String) (payment : Payment)
    (last : EventType) :
    Keeps P (fun _ g => J g) (finish cfg data fingerprint payment last) := by
  have creating (g : γ) (e : Effect) (hJ : J g) (h : e.creating) := neutral g e hJ (.inr h)
  apply keeps_bind (keeps_assign _)
  intro _
  apply keeps_bind (keeps_creating creating (uses_paymentEvents _ _) Effect.creating_of_hosting)
  intro events
  apply keeps_bind (keeps_creating creating (uses_save _ _ _) Effect.creating_of_saving)
  intro _
  apply keeps_bind (keeps_coordinating neutral (within.complete _ _ _))
  exact fun _ => keeps_assign _

theorem tryCandidates_keeps (data : PaymentInput) (fingerprint : String) (payment : Payment)
    (candidates : List Provider) :
    Keeps P (fun _ g => J g) (tryCandidates cfg data fingerprint payment candidates) := by
  have creating (g : γ) (e : Effect) (hJ : J g) (h : e.creating) := neutral g e hJ (.inr h)
  induction candidates with
  | nil => exact keeps_pure _
  | cons candidate rest ih =>
    have one : Keeps P (fun _ g => J g) (tryCandidate cfg data fingerprint payment candidate) := by
      apply keeps_bind (creating_visit creating _ _ _)
      intro result
      apply keeps_bind (keeps_bind keeps_get fun _ => keeps_pure _)
      intro payment
      exact keeps_bind (finish_keeps neutral within _ _ _ _) fun _ => keeps_pure _
    apply keeps_bind (keeps_attempt one)
    intro answer
    cases answer with
    | ok payment => exact keeps_pure _
    | error x =>
      cases x with
      | provider error =>
        apply keeps_bind (keeps_assign _)
        exact fun _ => keeps_ite (keeps_pure _) ih
      | _ => exact keeps_raise _

theorem orchestrate_keeps (data : PaymentInput) (fingerprint : String) :
    Keeps P (fun _ g => J g) (orchestrate cfg data fingerprint) := by
  have creating (g : γ) (e : Effect) (hJ : J g) (h : e.creating) := neutral g e hJ (.inr h)
  apply keeps_bind (keeps_creating creating (uses_newPayment _ _) Effect.creating_of_hosting)
  intro payment
  apply keeps_bind (keeps_assign _)
  intro _
  apply keeps_bind (keeps_creating creating (uses_healthyProviders _)
    (by rintro e ⟨p, rfl⟩; trivial))
  intro healthy
  apply keeps_bind (keeps_await (keeps_perform_creating neutral
    (e := .provider (.choose healthy)) trivial))
  intro provider
  apply keeps_bind (tryCandidates_keeps neutral within _ _ _ _)
  intro completed
  cases completed with
  | some payment => exact keeps_pure _
  | none =>
    apply keeps_bind (keeps_bind keeps_get fun _ => keeps_pure _)
    intro payment
    apply keeps_bind (finish_keeps neutral within _ _ _ _)
    intro _
    apply keeps_bind keeps_get
    intro s
    split
    · exact keeps_raise _
    · exact keeps_raise _

/-- Where the effects of `create` and of its coordinator stay in `J`, so does `create`. -/
theorem create_keeps (data : PaymentInput) : Keeps P (fun _ g => J g) (create cfg data) := by
  have claimed : Keeps P (fun _ g => J g)
      (createClaimed cfg data (requestFingerprint cfg.sha256 data)) := by
    apply keeps_bind (keeps_await (keeps_perform_creating neutral
      (e := .store (.getByIdempotency data.key)) trivial))
    intro existing
    cases existing with
    | none => exact orchestrate_keeps neutral within _ _
    | some existing =>
      apply keeps_ite (keeps_raise _)
      apply keeps_bind (keeps_coordinating neutral (within.complete _ _ _))
      exact fun _ => keeps_bind (keeps_assign _) fun _ => keeps_pure _
  have released : Keeps P (fun _ g => J g)
      (release cfg data (requestFingerprint cfg.sha256 data)) := by
    apply keeps_bind keeps_get
    intro s
    apply keeps_onlyIf
    apply keeps_bind (keeps_attempt (keeps_coordinating neutral (within.abort _ _)))
    intro answer
    split
    · exact keeps_raise _
    · exact keeps_pure _
  apply keeps_bind (keeps_coordinating neutral (within.acquire _ _))
  intro decision
  split
  · exact keeps_raise _
  · apply keeps_bind
    · unfold storedResult
      split
      · exact keeps_await (keeps_perform_creating neutral trivial)
      · exact keeps_pure _
    · intro existing
      cases existing with
      | some payment => exact keeps_pure _
      | none => exact keeps_raise _
  · apply keeps_bind (keeps_assign _)
    intro _
    apply keeps_bind (keeps_attempt claimed)
    intro answer
    cases answer with
    | ok payment => exact keeps_pure _
    | error x => exact keeps_bind released fun _ => keeps_raise _

end Service

end PySwitch
