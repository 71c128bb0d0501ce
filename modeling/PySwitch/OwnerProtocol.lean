import PySwitch.ClaimProtocol

namespace PySwitch.Owner

open Async Program Service
open Claim (Request requestOf)

/-- Whether a call of `create` holds the claim on its key. The store may fail at any time. -/
inductive Stage where
  | asking
  | holding
  | settled
  deriving DecidableEq

def ok (q : Request) : Stage → Effect → Prop
  | .asking, .coordinator (.acquire key fingerprint) => key = q.key ∧ fingerprint = q.fingerprint
  | .holding, .coordinator (.complete key fingerprint _) =>
    key = q.key ∧ fingerprint = q.fingerprint
  | .holding, .coordinator (.abort key fingerprint) => key = q.key ∧ fingerprint = q.fingerprint
  | _, .coordinator _ => False
  | .asking, _ => False
  | _, _ => True

def may : (e : Effect) → e.Reply → Prop
  | .coordinator (.complete _ _ _), .error _ => False
  | _, _ => True

def next : Stage → (e : Effect) → e.Reply → Stage
  | .asking, .coordinator (.acquire _ _), .ok ⟨.claimed, _⟩ => .holding
  | .asking, .coordinator (.acquire _ _), _ => .settled
  | .holding, .coordinator (.complete _ _ _), _ => .settled
  | .holding, .coordinator (.abort _ _), _ => .settled
  | g, _, _ => g

def protocol (q : Request) : Protocol Effect Effect.Reply Stage := ⟨ok q, fun _ => may, next⟩

def Holding (s : Locals) (g : Stage) : Prop := s.claimed = true ∧ g = .holding

def Settled (s : Locals) (g : Stage) : Prop := s.claimed = false ∧ g = .settled

section Holding

variable {cfg : Config} {q : Request}

theorem holding_neutral (s : Locals) (g : Stage) (e : Effect) (h : Holding s g)
    (he : ¬ e.coordinating) : (protocol q).ok g e ∧
      ∀ r, (protocol q).may g e r → Holding s ((protocol q).next g e r) := by
  obtain ⟨claimed, rfl⟩ := h
  cases e with
  | coordinator e => exact absurd trivial he
  | _ => exact ⟨trivial, fun _ _ => ⟨claimed, rfl⟩⟩

theorem not_coordinating_of_trying {e : Effect} (h : e.trying ∨ e.recording) :
    ¬ e.coordinating := by
  cases e with
  | coordinator e => exact (h.elim id id).elim
  | redis e => exact (h.elim id id).elim
  | _ => exact id

theorem keeps_holding {α : Type} {A : Effect → Prop} {m : Service α} (h : Uses A m)
    (hA : ∀ e, A e → ¬ e.coordinating) : Keeps (protocol q) Holding m :=
  keeps_of_uses h fun s g e hI he => holding_neutral s g e hI (hA e he)

theorem keeps_visit (payment : Payment) (provider : Provider) (data : PaymentInput) :
    Keeps (protocol q) Holding (attemptProvider cfg payment provider data) := by
  have alone {e : Effect} (he : ¬ e.coordinating) : Keeps (protocol q) Holding (perform e) :=
    keeps_holding (A := fun e => ¬ e.coordinating) (uses_effect he) fun _ h => h
  apply keeps_attemptProvider
  · exact fun _ _ _ h => h
  · exact fun _ _ h => h
  · have neutral (s : Locals) (g : Stage) (e : Effect) (h : Holding s g)
        (he : e.trying ∨ e.recording) := holding_neutral (q := q) s g e h
          (not_coordinating_of_trying he)
    apply keeps_operation
    · exact neutral_hosting neutral
    · exact keeps_recordCircuitTransition neutral
    · exact fun _ _ _ h => h
    · exact fun s g p paymentId h => holding_neutral s g _ h id
  · exact alone id
  · exact fun _ => keeps_await (alone id)

end Holding

section Create

variable {cfg : Config} (direct : cfg.coordinator = .direct) (data : PaymentInput)

include direct

theorem finish_wp (payment : Payment) (last : EventType) {s : Locals} {g : Stage}
    (h : Holding s g) : wp (protocol (requestOf cfg data))
      (finish cfg data (requestFingerprint cfg.sha256 data) payment last)
      (fun r s' g' => match r with
        | .ok _ => Settled s' g'
        | .error _ => Holding s' g') s g := by
  have hosting (e : Effect) (he : e.hosting) : ¬ e.coordinating := by
    cases e with
    | host e => exact id
    | _ => exact he.elim
  have saving (e : Effect) (he : e.saving) : ¬ e.coordinating := by
    cases e with
    | store e => exact id
    | _ => exact he.elim
  simp only [finish, wp_bind, wp_modify, orRaise_ok]
  have h' : Holding { s with payment := some payment } g := h
  apply wp_mono (keeps_holding (uses_paymentEvents payment last) hosting _ _ h')
  intro r s' g' h'
  cases r with
  | error x => exact h'
  | ok events =>
    simp only [orRaise_ok, wp_bind]
    apply wp_mono (keeps_holding (uses_save cfg payment events) saving _ _ h')
    intro r s' g' h'
    cases r with
    | error x => exact h'
    | ok =>
      obtain ⟨claimed, rfl⟩ := h'
      simp only [orRaise_ok, direct, Coordinator.direct, perform, wp_bind, wp_await, wp_effect]
      refine ⟨⟨rfl, rfl⟩, fun r hr => ?_⟩
      cases r with
      | error x => exact hr.elim
      | ok => exact ⟨rfl, rfl⟩

/-- With the claim held a call ends having given it up, or still holds it after an exception. -/
def Concluded {α : Type} (r : Except Exn α) (s : Locals) (g : Stage) : Prop :=
  match r with
  | .ok _ => Settled s g
  | .error _ => Holding s g ∨ Settled s g

theorem orchestrate_wp {s : Locals} {g : Stage} (h : Holding s g) :
    wp (protocol (requestOf cfg data)) (orchestrate cfg data (requestFingerprint cfg.sha256 data))
      Concluded s g := by
  have alone {e : Effect} (he : ¬ e.coordinating) :
      Keeps (protocol (requestOf cfg data)) Holding (perform e) :=
    keeps_holding (A := fun e => ¬ e.coordinating) (uses_effect he) fun _ h => h
  refine wp_mono (Service.orchestrate_wp (I := Holding) (M := Holding) (L := Holding)
    (J := fun _ => Settled) (K := fun _ => Settled) (fun _ _ h => h)
    (fun payment provider s g h => ?_) (fun _ _ _ _ _ h => ?_)
    (fun _ _ _ h => h) ?_ ?_ (fun _ => keeps_await (alone id))
    fun _ _ _ h => finish_wp direct data _ _ h) ?_
  · apply wp_mono (keeps_visit payment provider data s g h)
    intro r s' g' h
    cases r <;> exact h
  · apply wp_mono (finish_wp direct data _ _ h)
    intro r s' g' h
    cases r with
    | ok => exact h
    | error x => exact unfinished_of (fun _ _ h => h) h
  · obtain ⟨claimed, rfl⟩ := h
    simp only [newPayment, uuid4, now, perform, wp_bind, wp_effect]
    exact ⟨trivial, fun id _ => ⟨trivial, fun _ _ => ⟨trivial, fun _ _ => ⟨_, rfl, claimed, rfl⟩⟩⟩⟩
  · exact keeps_holding (uses_healthyProviders _) (by rintro e ⟨p, rfl⟩; exact id)
  · intro r s g h
    cases r with
    | ok p => exact h
    | error x =>
      obtain h | ⟨p, error, -, h⟩ := h
      · exact .inl h
      · exact .inr h

theorem createClaimed_wp {s : Locals} {g : Stage} (h : Holding s g) :
    wp (protocol (requestOf cfg data))
      (createClaimed cfg data (requestFingerprint cfg.sha256 data)) Concluded s g := by
  obtain ⟨claimed, rfl⟩ := h
  simp only [createClaimed, perform, wp_bind, wp_await, wp_effect]
  refine ⟨trivial, fun r _ => ?_⟩
  cases r with
  | error x => exact .inl ⟨claimed, rfl⟩
  | ok existing =>
    cases existing with
    | none => exact orchestrate_wp direct data ⟨claimed, rfl⟩
    | some existing =>
      simp only [orRaise_ok, wp_ite, wp_raise]
      split
      · exact .inl ⟨claimed, rfl⟩
      · simp only [direct, Coordinator.direct, perform, wp_bind, wp_await, wp_effect]
        refine ⟨⟨rfl, rfl⟩, fun r hr => ?_⟩
        cases r with
        | error x => exact hr.elim
        | ok => exact ⟨rfl, rfl⟩

/-- However a call of `create` ends, it holds no claim then. -/
theorem create_wp {s : Locals} :
    wp (protocol (requestOf cfg data)) (create cfg data) (fun _ _ g => g = .settled) s .asking := by
  simp only [create, direct, Coordinator.direct, perform, wp_bind, wp_await, wp_effect]
  refine ⟨⟨rfl, rfl⟩, fun r _ => ?_⟩
  cases r with
  | error x => exact rfl
  | ok decision =>
    obtain ⟨status, paymentId⟩ := decision
    cases status with
    | conflict => exact rfl
    | completed =>
      simp only [orRaise_ok, replay, storedResult, wp_bind]
      cases paymentId with
      | none => exact rfl
      | some paymentId =>
        simp only [Service.get, perform, wp_await, wp_effect]
        refine ⟨trivial, fun r _ => ?_⟩
        obtain x | (_ | p) := r <;> exact rfl
    | claimed =>
      simp only [orRaise_ok, wp_bind, wp_modify, wp_attempt]
      apply wp_mono (createClaimed_wp direct data ⟨rfl, rfl⟩)
      intro r s g h
      cases r with
      | ok p => exact h.2
      | error x =>
        simp only [orRaise_ok, release, direct, Coordinator.direct, perform, wp_bind, wp_get,
          wp_onlyIf, wp_attempt, wp_await, wp_effect]
        obtain ⟨claimed, rfl⟩ | ⟨released, rfl⟩ := h
        · rw [if_pos claimed]
          refine ⟨⟨rfl, rfl⟩, fun r _ => ?_⟩
          obtain x | r := r
          · cases x <;> exact rfl
          · exact rfl
        · rw [if_neg (by simp [released])]
          exact rfl

end Create

end PySwitch.Owner
