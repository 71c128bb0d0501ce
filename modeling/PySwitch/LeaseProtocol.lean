import PySwitch.ServiceOutcome

namespace PySwitch.Lease

open Async Program Service

/-- How far a call of `create` has come with the entry of its key in Redis: it has got no answer
yet, it holds the claim, it has written its result, it is about to delete the entry, or it is
done with it. -/
inductive Stage where
  | fresh
  | holding
  | marked
  | leaving
  | settled
  deriving DecidableEq

/-- The call is past a `CLAIMED` answer, and neither `complete` nor `abort` has ended. -/
def Stage.inside : Stage → Bool
  | .holding => true
  | .marked => true
  | .leaving => true
  | _ => false

structure Entry where
  redisKey : String
  fingerprint : String

def entryOf (sha256 : List Char → String) (data : PaymentInput) : Entry :=
  ⟨redisKey sha256 data.key, requestFingerprint sha256 data⟩

def ok (q : Entry) : Stage → Effect → Prop
  | .fresh, .redis (.claim redisKey fingerprint _) =>
    redisKey = q.redisKey ∧ fingerprint = q.fingerprint
  | .holding, .redis (.hset redisKey fingerprint _) =>
    redisKey = q.redisKey ∧ fingerprint = q.fingerprint
  | .holding, .redis (.hget redisKey) => redisKey = q.redisKey
  | .marked, .redis (.expire redisKey _) => redisKey = q.redisKey
  | .leaving, .redis (.delete redisKey) => redisKey = q.redisKey
  | _, .redis _ => False
  | .holding, _ => True
  | .settled, .store (.get _) => True
  | _, _ => False

/-- No command fails, and an owner that reads its entry finds its own fingerprint there. -/
def may (q : Entry) : (e : Effect) → e.Reply → Prop
  | .redis (.hset _ _ _), .error _ => False
  | .redis (.expire _ _), .error _ => False
  | .redis (.hget _), r => r = .ok (some q.fingerprint)
  | .redis (.delete _), .error _ => False
  | _, _ => True

def next : Stage → (e : Effect) → e.Reply → Stage
  | .fresh, .redis (.claim _ _ _), .ok ⟨.claimed, _⟩ => .holding
  | .fresh, .redis (.claim _ _ _), _ => .settled
  | .holding, .redis (.hset _ _ _), _ => .marked
  | .holding, .redis (.hget _), _ => .leaving
  | .marked, .redis (.expire _ _), _ => .settled
  | .leaving, .redis (.delete _), _ => .settled
  | g, _, _ => g

def protocol (q : Entry) : Protocol Effect Effect.Reply Stage := ⟨ok q, fun _ => may q, next⟩

theorem next_other {e : Effect} (he : ∀ a, e ≠ .redis a) (g : Stage) (r : e.Reply) :
    next g e r = g := by
  cases e with
  | redis a => exact absurd rfl (he a)
  | _ => cases g <;> rfl

def Holding (s : Locals) (g : Stage) : Prop := s.claimed = true ∧ g = .holding

def Settled (s : Locals) (g : Stage) : Prop := s.claimed = false ∧ g = .settled

section Holding

variable {cfg : Config} {q : Entry}

theorem holding_neutral (s : Locals) (g : Stage) (e : Effect) (h : Holding s g)
    (he : ¬ e.coordinating) : (protocol q).ok g e ∧
      ∀ r, (protocol q).may g e r → Holding s ((protocol q).next g e r) := by
  obtain ⟨claimed, rfl⟩ := h
  cases e with
  | redis e => exact absurd trivial he
  | coordinator e => exact absurd trivial he
  | _ => exact ⟨trivial, fun _ _ => ⟨claimed, rfl⟩⟩

theorem keeps_holding {α : Type} {A : Effect → Prop} {m : Service α} (h : Uses A m)
    (hA : ∀ e, A e → ¬ e.coordinating) : Keeps (protocol q) Holding m :=
  keeps_of_uses h fun s g e hI he => holding_neutral s g e hI (hA e he)

theorem keeps_alone {e : Effect} (he : ¬ e.coordinating) :
    Keeps (protocol q) Holding (perform e) :=
  keeps_holding (A := fun e => ¬ e.coordinating) (uses_effect he) fun _ h => h

theorem keeps_visit (payment : Payment) (provider : Provider) (data : PaymentInput) :
    Keeps (protocol q) Holding (attemptProvider cfg payment provider data) := by
  have neutral (s : Locals) (g : Stage) (e : Effect) (h : Holding s g)
      (he : e.trying ∨ e.recording) : (protocol q).ok g e ∧
        ∀ r, (protocol q).may g e r → Holding s ((protocol q).next g e r) := by
    apply holding_neutral s g e h
    cases e <;> first | exact id | exact (he.elim id id).elim
  apply keeps_attemptProvider (fun _ _ _ h => h) fun _ _ h => h
  · apply keeps_operation
    · exact neutral_hosting neutral
    · exact keeps_recordCircuitTransition neutral
    · exact fun _ _ _ h => h
    · exact fun s g p paymentId h => holding_neutral s g _ h id
  · exact keeps_alone id
  · exact fun _ => keeps_await (keeps_alone id)

end Holding

section Commands

variable {sha256 : List Char → String} {ttl : ℕ} {key : RecordKey} {fingerprint : String}
  {s : Locals}

theorem acquire_wp :
    wp (protocol ⟨redisKey sha256 key, fingerprint⟩)
      ((Coordinator.redis sha256 ttl).acquire key fingerprint)
      (fun r s' g => s' = s ∧ match r with
        | .ok ⟨.claimed, _⟩ => g = .holding
        | _ => g = .settled) s .fresh := by
  simp only [Coordinator.redis, Coordinator.guarded, perform, wp_bind, wp_attempt, wp_await,
    wp_effect]
  refine ⟨⟨rfl, rfl⟩, fun r _ => ?_⟩
  cases r with
  | ok decision =>
    obtain ⟨status, paymentId⟩ := decision
    cases status <;> exact ⟨rfl, rfl⟩
  | error x => cases x <;> exact ⟨rfl, rfl⟩

theorem complete_wp (paymentId : Uuid) :
    wp (protocol ⟨redisKey sha256 key, fingerprint⟩)
      ((Coordinator.redis sha256 ttl).complete key fingerprint paymentId)
      (fun r s' g => r = .ok () ∧ s' = s ∧ g = .settled) s .holding := by
  simp only [Coordinator.redis, Coordinator.guarded, perform, wp_bind, wp_attempt, wp_await,
    wp_effect]
  refine ⟨⟨rfl, rfl⟩, fun r hr => ?_⟩
  cases r with
  | error x => exact hr.elim
  | ok =>
    refine ⟨rfl, fun r hr => ?_⟩
    cases r with
    | error x => exact hr.elim
    | ok => exact ⟨rfl, rfl, rfl⟩

theorem abort_wp :
    wp (protocol ⟨redisKey sha256 key, fingerprint⟩)
      ((Coordinator.redis sha256 ttl).abort key fingerprint)
      (fun r s' g => r = .ok () ∧ s' = s ∧ g = .settled) s .holding := by
  simp only [Coordinator.redis, Coordinator.guarded, perform, wp_bind, wp_attempt, wp_await,
    wp_effect]
  refine ⟨rfl, fun r hr => ?_⟩
  obtain rfl : r = .ok (some fingerprint) := hr
  simp only [orRaise_ok, wp_onlyIf, if_true, wp_await, wp_effect]
  refine ⟨rfl, fun r hr => ?_⟩
  cases r with
  | error x => exact hr.elim
  | ok => exact ⟨rfl, rfl, rfl⟩

end Commands

section Create

variable {cfg : Config} {ttl : ℕ} (redis : cfg.coordinator = .redis cfg.sha256 ttl)
  (data : PaymentInput)

include redis

theorem finish_wp (payment : Payment) (last : EventType) {s : Locals} {g : Stage}
    (h : Holding s g) : wp (protocol (entryOf cfg.sha256 data))
      (finish cfg data (requestFingerprint cfg.sha256 data) payment last)
      (fun r s' g' => match r with
        | .ok _ => Settled s' g'
        | .error _ => Holding s' g') s g := by
  have hosting (e : Effect) (he : e.hosting) : ¬ e.coordinating := by
    cases e <;> first | exact id | exact he.elim
  have saving (e : Effect) (he : e.saving) : ¬ e.coordinating := by
    cases e <;> first | exact id | exact he.elim
  simp only [finish, wp_bind, wp_modify, orRaise_ok]
  have h' : Holding { s with payment := some payment } g := h
  apply wp_mono (keeps_holding (uses_paymentEvents payment last) hosting _ _ h')
  intro r s' g' h'
  cases r with
  | error x => exact h'
  | ok events =>
    simp only [orRaise_ok, wp_bind]
    apply wp_mono (keeps_holding (uses_save cfg payment events) saving _ _ h')
    intro r s' g' h'
    cases r with
    | error x => exact h'
    | ok =>
      obtain ⟨claimed, rfl⟩ := h'
      simp only [orRaise_ok, redis, wp_bind]
      apply wp_mono (complete_wp payment.id)
      rintro _ s'' g'' ⟨rfl, rfl, rfl⟩
      exact ⟨rfl, rfl⟩

/-- With the claim held a call ends having given it up, or still holds it after an exception. -/
def Concluded {α : Type} (r : Except Exn α) (s : Locals) (g : Stage) : Prop :=
  match r with
  | .ok _ => Settled s g
  | .error _ => Holding s g ∨ Settled s g

theorem orchestrate_wp {s : Locals} {g : Stage} (h : Holding s g) :
    wp (protocol (entryOf cfg.sha256 data))
      (orchestrate cfg data (requestFingerprint cfg.sha256 data)) Concluded s g := by
  refine wp_mono (Service.orchestrate_wp (I := Holding) (M := Holding) (L := Holding)
    (J := fun _ => Settled) (K := fun _ => Settled) (fun _ _ h => h)
    (fun payment provider s g h => ?_) (fun _ _ _ _ _ h => ?_)
    (fun _ _ _ h => h) ?_ ?_ (fun _ => keeps_await (keeps_alone id))
    fun _ _ _ h => finish_wp redis data _ _ h) ?_
  · apply wp_mono (keeps_visit payment provider data s g h)
    intro r s' g' h
    cases r <;> exact h
  · apply wp_mono (finish_wp redis data _ _ h)
    intro r s' g' h
    cases r with
    | ok => exact h
    | error x => exact unfinished_of (fun _ _ h => h) h
  · obtain ⟨claimed, rfl⟩ := h
    simp only [newPayment, uuid4, now, perform, wp_bind, wp_effect]
    exact ⟨trivial, fun id _ => ⟨trivial, fun _ _ => ⟨trivial, fun _ _ => ⟨_, rfl, claimed, rfl⟩⟩⟩⟩
  · exact keeps_holding (uses_healthyProviders _) (by rintro e ⟨p, rfl⟩; exact id)
  · intro r s g h
    cases r with
    | ok p => exact h
    | error x =>
      obtain h | ⟨p, error, -, h⟩ := h
      · exact .inl h
      · exact .inr h

theorem createClaimed_wp {s : Locals} {g : Stage} (h : Holding s g) :
    wp (protocol (entryOf cfg.sha256 data))
      (createClaimed cfg data (requestFingerprint cfg.sha256 data)) Concluded s g := by
  obtain ⟨claimed, rfl⟩ := h
  simp only [createClaimed, perform, wp_bind, wp_await, wp_effect]
  refine ⟨trivial, fun r _ => ?_⟩
  cases r with
  | error x => exact .inl ⟨claimed, rfl⟩
  | ok existing =>
    cases existing with
    | none => exact orchestrate_wp redis data ⟨claimed, rfl⟩
    | some existing =>
      simp only [orRaise_ok, wp_ite, wp_raise]
      split
      · exact .inl ⟨claimed, rfl⟩
      · simp only [redis, wp_bind]
        apply wp_mono (complete_wp existing.id)
        rintro _ s' g' ⟨rfl, rfl, rfl⟩
        exact ⟨rfl, rfl⟩

/-- However a call of `create` ends, it is done with the entry of its key then. -/
theorem create_wp {s : Locals} :
    wp (protocol (entryOf cfg.sha256 data)) (create cfg data) (fun _ _ g => g = .settled) s
      .fresh := by
  simp only [create, redis, wp_bind]
  apply wp_mono acquire_wp
  rintro r s' g ⟨rfl, h⟩
  cases r with
  | error x => exact h
  | ok decision =>
    obtain ⟨status, paymentId⟩ := decision
    cases status with
    | conflict => exact h
    | completed =>
      obtain rfl : g = .settled := h
      simp only [orRaise_ok, replay, storedResult, wp_bind]
      cases paymentId with
      | none => exact rfl
      | some paymentId =>
        simp only [Service.get, perform, wp_await, wp_effect]
        refine ⟨trivial, fun r _ => ?_⟩
        obtain x | (_ | p) := r <;> exact rfl
    | claimed =>
      simp only [orRaise_ok, wp_bind, wp_modify, wp_attempt]
      apply wp_mono (createClaimed_wp redis data ⟨rfl, h⟩)
      intro r s g h
      cases r with
      | ok p => exact h.2
      | error x =>
        simp only [orRaise_ok, release, redis, wp_bind, wp_get, wp_onlyIf, wp_attempt]
        obtain ⟨claimed, rfl⟩ | ⟨released, rfl⟩ := h
        · rw [if_pos claimed]
          apply wp_mono abort_wp
          rintro _ s' g ⟨rfl, rfl, rfl⟩
          exact rfl
        · rw [if_neg (by simp [released])]
          exact rfl

end Create

end PySwitch.Lease
