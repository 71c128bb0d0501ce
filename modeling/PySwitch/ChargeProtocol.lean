import PySwitch.Machine
import PySwitch.ServiceOutcome

namespace PySwitch.Charges

open Async Program Service

/-- How far a `create` has come: it has not asked the store for its key, it has found the key
unused, a provider has returned a result that is not saved yet, or a save has come after that. -/
inductive Stage where
  | fresh
  | unused
  | charged
  | saved
  deriving DecidableEq

def Stage.save : Stage → Stage
  | .charged => .saved
  | g => g

def ok (key : RecordKey) (g : Stage) : Effect → Prop
  | .store (.getByIdempotency k) => k = key
  | .store (.save p) => p.key = key
  | .store (.saveWithEvents p _) => p.key = key
  | .provider (.startPayment _ _ _ _ _) => g ≠ .fresh
  | .provider (.finishPayment _ _) => g ≠ .fresh
  | .coordinator _ => g ≠ .charged
  | .redis _ => g ≠ .charged
  | _ => True

/-- What can be met when no event fails to be appended between a result and its save. -/
def may (g : Stage) : (e : Effect) → e.Reply → Prop
  | .store (.append _), .error _ => g ≠ .charged
  | _, _ => True

def next (g : Stage) : (e : Effect) → e.Reply → Stage
  | .store (.getByIdempotency _), .ok none => if g = .fresh then .unused else g
  | .provider (.finishPayment _ _), .ok _ => if g = .unused then .charged else g
  | .store (.save _), _ => g.save
  | .store (.saveWithEvents _ _), _ => g.save
  | _, _ => g

def protocol (key : RecordKey) : Protocol Effect Effect.Reply Stage := ⟨ok key, may, next⟩

/-- The effects that leave every stage as it is, other than those of the coordinator. -/
def idle : Effect → Prop
  | .store (.getByIdempotency _) => False
  | .store (.save _) => False
  | .store (.saveWithEvents _ _) => False
  | .provider (.finishPayment _ _) => False
  | .coordinator _ => False
  | .redis _ => False
  | _ => True

theorem idle_next {e : Effect} (he : idle e ∨ e.coordinating) (g : Stage) (r : e.Reply) :
    next g e r = g := by
  cases e with
  | store e => cases e <;> first | rfl | exact (he.elim id id).elim
  | provider e => cases e <;> first | rfl | exact (he.elim id id).elim
  | _ => rfl

theorem idle_ok {e : Effect} (he : idle e) (key : RecordKey) {g : Stage} (hg : g ≠ .fresh) :
    ok key g e := by
  cases e with
  | store e => cases e <;> trivial
  | provider e => cases e <;> trivial
  | _ => trivial

theorem idle_of_trying {e : Effect} (he : e.trying ∨ e.recording) : idle e := by
  cases e with
  | store e => cases e <;> first | trivial | exact (he.elim id id).elim
  | provider e => cases e <;> first | trivial | exact (he.elim id id).elim
  | coordinator e => exact (he.elim id id).elim
  | redis e => exact (he.elim id id).elim
  | _ => trivial

theorem idle_of_settling {e : Effect} (he : e.settling) : idle e := by
  cases e with
  | store e => cases e <;> trivial
  | provider e => exact he.elim
  | coordinator e => exact he.elim
  | redis e => exact he.elim
  | _ => trivial

section Visit

variable {key : RecordKey} {a : Stage} {cfg : Config}

/-- The call works on a payment of the key and has come to the stage `a`. -/
def At (key : RecordKey) (a : Stage) (s : Locals) (g : Stage) : Prop :=
  (∃ p, s.payment = some p ∧ p.key = key) ∧ g = a

theorem at_idle (begun : a ≠ .fresh) (s : Locals) (g : Stage) (e : Effect) (h : At key a s g)
    (he : idle e) : (protocol key).ok g e ∧
      ∀ r, (protocol key).may g e r → At key a s ((protocol key).next g e r) := by
  obtain ⟨keyed, rfl⟩ := h
  exact ⟨idle_ok he key begun, fun r _ => ⟨keyed, idle_next (.inl he) g r⟩⟩

theorem keeps_idle (begun : a ≠ .fresh) {e : Effect} (he : idle e) :
    Keeps (protocol key) (At key a) (perform e) :=
  keeps_of_uses (uses_effect he) (at_idle begun)

theorem At.extended {s : Locals} {g : Stage} (h : At key a s g) :
    At key a (extendAttempts s) g := by
  obtain ⟨⟨p, hp, hk⟩, rfl⟩ := h
  exact ⟨⟨{ p with attempts := p.attempts ++ s.attempts }, by rw [extendAttempts, hp]; rfl, hk⟩,
    rfl⟩

/-- A visit returns with a result that is to be saved. -/
theorem visit_unused (payment : Payment) (provider : Provider) (data : PaymentInput) :
    Turns (protocol key) (At key .unused) (At key .charged)
      (attemptProvider cfg payment provider data) := by
  apply turns_attemptProvider (fun _ _ _ h => h) (fun _ _ => At.extended) fun _ _ => At.extended
  · apply turns_operation
    · exact fun s g e h he => at_idle (by decide) s g e h (idle_of_trying he)
    · rintro s g p paymentId ⟨keyed, rfl⟩
      refine ⟨nofun, fun r _ => ?_⟩
      cases r <;> exact ⟨keyed, rfl⟩
    · exact fun s g e h he => at_idle (by decide) s g e h (idle_of_settling he)
    · rintro s g events x ⟨-, rfl⟩ hm
      exact hm rfl
    · exact fun _ _ _ h => h
    · exact fun _ _ _ h => h
  · exact keeps_idle (by decide) trivial
  · exact fun delay => keeps_await (keeps_idle (by decide) trivial)

theorem visit_saved (payment : Payment) (provider : Provider) (data : PaymentInput) :
    Keeps (protocol key) (At key .saved) (attemptProvider cfg payment provider data) := by
  apply keeps_attemptProvider (fun _ _ _ h => h) fun _ _ => At.extended
  · apply keeps_operation
    · exact fun s g e h he => at_idle (by decide) s g e h
        (idle_of_trying (he.imp_right (Effect.recording_of_hosting e)))
    · exact fun provider previous current => keeps_of_uses
        (uses_recordCircuitTransition cfg provider previous current)
        fun s g e h he => at_idle (by decide) s g e h (idle_of_trying (.inr he))
    · exact fun _ _ _ h => h
    · rintro s g p paymentId ⟨keyed, rfl⟩
      refine ⟨nofun, fun r _ => ?_⟩
      cases r <;> exact ⟨keyed, rfl⟩
  · exact keeps_idle (by decide) trivial
  · exact fun delay => keeps_await (keeps_idle (by decide) trivial)

/-- The call works on a payment and owes no save. -/
def Working (key : RecordKey) (s : Locals) (g : Stage) : Prop :=
  At key .unused s g ∨ At key .saved s g

/-- The call works on a payment for which a provider has returned a result. -/
def Charged (key : RecordKey) (s : Locals) (g : Stage) : Prop :=
  At key .charged s g ∨ At key .saved s g

theorem turns_visit (payment : Payment) (provider : Provider) (data : PaymentInput) :
    Turns (protocol key) (Working key) (Charged key)
      (attemptProvider cfg payment provider data) := by
  rintro s g (h | h)
  · apply wp_mono (visit_unused payment provider data s g h)
    intro r s' g' h
    cases r with
    | ok _ => exact .inl h
    | error _ => exact .inl h
  · apply wp_mono (visit_saved payment provider data s g h)
    intro r s' g' h
    cases r with
    | ok _ => exact .inr h
    | error _ => exact .inr h

theorem keeps_working {e : Effect} (he : idle e) :
    Keeps (protocol key) (Working key) (perform e) := by
  rintro s g (h | h)
  · exact wp_mono (keeps_idle (by decide) he s g h) fun _ _ _ h => .inl h
  · exact wp_mono (keeps_idle (by decide) he s g h) fun _ _ _ h => .inr h

theorem Working.saved {s : Locals} {g : Stage} (h : Working key s g) : g ≠ .charged := by
  obtain ⟨-, rfl⟩ | ⟨-, rfl⟩ := h <;> nofun

end Visit

section Create

variable {cfg : Config} {s : Locals} {g : Stage}

/-- The call has left its payment, and no result is waiting to be saved. -/
def Left (_ : Locals) (g : Stage) : Prop := g ≠ .charged

theorem keeps_coordinating {key : RecordKey} {α : Type} {m : Service α}
    (h : Uses Effect.coordinating m) {a : Stage} (settled : a ≠ .charged) (s : Locals) :
    wp (protocol key) m (fun _ s' g => s' = s ∧ g = a) s a := by
  apply wp_of_uses (J := fun g => g = a) h
  · rintro g e rfl he
    refine ⟨?_, fun r _ => idle_next (.inr he) g r⟩
    cases e <;> first | exact he.elim | exact settled
  · rfl
  · exact fun _ _ same => ⟨rfl, same⟩

theorem save_settled (g : Stage) : g.save ≠ .charged := by
  cases g <;> nofun

theorem save_wp (p : Payment) (events : List EventEnvelope) :
    wp (protocol p.key) (save cfg p events) (fun _ s' g' => s' = s ∧ g' = g.save) s g := by
  unfold save
  split
  · simp only [perform, wp_await, wp_effect]
    exact ⟨rfl, fun r _ => by cases r <;> exact ⟨rfl, rfl⟩⟩
  · simp only [perform, wp_bind, wp_await, wp_effect]
    refine ⟨rfl, fun r _ => ?_⟩
    cases r with
    | error x => exact ⟨rfl, rfl⟩
    | ok _ =>
      simp only [orRaise_ok, wp_onlyIf, wp_await, wp_effect]
      split
      · exact ⟨trivial, fun _ _ => ⟨trivial, rfl⟩⟩
      · exact ⟨trivial, rfl⟩

theorem finish_wp {key : RecordKey} (data : PaymentInput) (fingerprint : String) {p : Payment}
    (last : EventType) (keyed : p.key = key) (begun : g ≠ .fresh) :
    wp (protocol key) (finish cfg data fingerprint p last) (fun _ s' g' => At key g.save s' g')
      s g := by
  subst keyed
  have settling (s' : Locals) (g' : Stage) (e : Effect) (h : At p.key g s' g') (he : e.settling) :
      (protocol p.key).ok g' e ∧
        ∀ r, (protocol p.key).may g' e r → At p.key g s' ((protocol p.key).next g' e r) :=
    at_idle begun s' g' e h (idle_of_settling he)
  simp only [finish, wp_bind, wp_modify, orRaise_ok]
  apply wp_mono (succeeds_paymentEvents settling p last _ g ⟨⟨p, rfl, rfl⟩, rfl⟩)
  rintro _ s' g' ⟨⟨events, rfl⟩, keyed, rfl⟩
  simp only [orRaise_ok, wp_bind]
  apply wp_mono (save_wp p events)
  rintro r s'' g'' ⟨rfl, rfl⟩
  cases r with
  | error x => exact ⟨keyed, rfl⟩
  | ok _ =>
    simp only [orRaise_ok, wp_bind]
    apply wp_mono (keeps_coordinating (cfg.coordinator.complete_uses data.key fingerprint p.id)
      (save_settled g') _)
    rintro r s' g'' ⟨rfl, rfl⟩
    cases r <;> exact ⟨keyed, rfl⟩

theorem At.left {key : RecordKey} {a : Stage} (h : At key a.save s g) : Left s g := by
  obtain ⟨-, rfl⟩ := h
  exact save_settled a

theorem orchestrate_wp (data : PaymentInput) (fingerprint : String) :
    wp (protocol data.key) (orchestrate cfg data fingerprint) (fun _ s' g' => Left s' g') s
      .unused := by
  have health : Keeps (protocol data.key) (Working data.key) (healthyProviders cfg.providers) := by
    have checks {a : Stage} (begun : a ≠ .fresh) :
        Keeps (protocol data.key) (At data.key a) (healthyProviders cfg.providers) :=
      keeps_of_uses (uses_healthyProviders _) fun s g e h he => by
        obtain ⟨p, rfl⟩ := he
        exact at_idle begun s g _ h trivial
    rintro s g (h | h)
    · exact wp_mono (checks (by decide) s g h) fun _ _ _ h => .inl h
    · exact wp_mono (checks (by decide) s g h) fun _ _ _ h => .inr h
  refine wp_mono (Service.orchestrate_wp (I := Working data.key) (M := Charged data.key)
    (L := Left) (J := fun _ => Left) (K := fun _ => Left) (fun _ _ => Working.saved)
    (fun payment provider => turns_visit payment provider data) ?_ ?_ ?_ health
    (fun _ => keeps_await (keeps_working trivial)) ?_) ?_
  · rintro payment provider result s g h
    obtain ⟨begun, saved, q, hq, hk⟩ : g ≠ .fresh ∧ g.save = .saved ∧
        ∃ q, s.payment = some q ∧ q.key = data.key := by
      obtain ⟨keyed, rfl⟩ | ⟨keyed, rfl⟩ := h <;> exact ⟨nofun, rfl, keyed⟩
    rw [hq, Option.getD_some]
    intro p
    have keyed : p.key = data.key := hk
    apply wp_mono (finish_wp data fingerprint .paymentSucceeded keyed begun)
    rw [saved]
    intro r s' g' h
    cases r with
    | ok _ => exact At.left (a := .charged) h
    | error x => exact unfinished_of (fun _ _ => Working.saved) (.inr h)
  · rintro s g error (h | h)
    · exact .inl h
    · exact .inr h
  · simp only [newPayment, uuid4, now, perform, wp_bind, wp_effect]
    exact ⟨trivial, fun id _ => ⟨trivial, fun _ _ => ⟨trivial, fun _ _ =>
      ⟨_, rfl, .inl ⟨⟨_, rfl, rfl⟩, rfl⟩⟩⟩⟩⟩
  · rintro payment s g h
    obtain ⟨begun, q, hq, hk⟩ : g ≠ .fresh ∧ ∃ q, s.payment = some q ∧ q.key = data.key := by
      obtain ⟨keyed, rfl⟩ | ⟨keyed, rfl⟩ := h <;> exact ⟨nofun, keyed⟩
    rw [hq, Option.getD_some]
    intro p
    have keyed : p.key = data.key := hk
    apply wp_mono (finish_wp data fingerprint .paymentFailed keyed begun)
    intro r s' g' h
    cases r <;> exact h.left
  · intro r s g h
    cases r with
    | ok p => exact h
    | error x =>
      obtain h | ⟨-, -, -, h⟩ := h
      · exact h
      · exact h

theorem createClaimed_wp (data : PaymentInput) (fingerprint : String) :
    wp (protocol data.key) (createClaimed cfg data fingerprint) (fun _ s' g' => Left s' g') s
      .fresh := by
  simp only [createClaimed, perform, wp_bind, wp_await, wp_effect]
  refine ⟨rfl, fun r _ => ?_⟩
  obtain x | (_ | existing) := r
  · exact nofun
  · exact orchestrate_wp data fingerprint
  · simp only [orRaise_ok, wp_ite, wp_raise]
    split
    · exact nofun
    · rw [wp_bind]
      apply wp_mono (keeps_coordinating (cfg.coordinator.complete_uses data.key fingerprint
        existing.id) (a := .fresh) (by decide) _)
      rintro r s' g ⟨-, rfl⟩
      cases r <;> exact nofun

theorem create_wp (data : PaymentInput) :
    wp (protocol data.key) (create cfg data) (fun _ s' g' => Left s' g') s .fresh := by
  simp only [create, wp_bind]
  apply wp_mono (keeps_coordinating (cfg.coordinator.acquire_uses data.key
    (requestFingerprint cfg.sha256 data)) (a := .fresh) (by decide) _)
  rintro r s' g ⟨-, rfl⟩
  cases r with
  | error x => exact nofun
  | ok decision =>
    obtain ⟨status, paymentId⟩ := decision
    cases status with
    | conflict => exact nofun
    | completed =>
      simp only [orRaise_ok, replay, storedResult, wp_bind]
      cases paymentId with
      | none => exact nofun
      | some paymentId =>
        simp only [Service.get, perform, wp_await, wp_effect]
        refine ⟨trivial, fun r _ => ?_⟩
        obtain x | (_ | p) := r <;> exact nofun
    | claimed =>
      simp only [orRaise_ok, wp_bind, wp_modify, wp_attempt]
      apply wp_mono (createClaimed_wp data _)
      intro r s' g left
      cases r with
      | ok p => exact left
      | error x =>
        simp only [orRaise_ok, release, wp_bind, wp_get, wp_onlyIf, wp_attempt]
        split
        · apply wp_mono (keeps_coordinating (cfg.coordinator.abort_uses data.key _) left _)
          rintro r s'' g' ⟨-, rfl⟩
          split <;> exact left
        · exact left

end Create

end PySwitch.Charges
