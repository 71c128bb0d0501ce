import PySwitch.Machine
import PySwitch.ServiceOutcome

namespace PySwitch.Claim

open Async Program Service

/-- What a call asks for: the key it wants to use, and the fingerprint of its data. -/
structure Request where
  key : RecordKey
  fingerprint : String

def requestOf (cfg : Config) (data : PaymentInput) : Request :=
  ⟨data.key, requestFingerprint cfg.sha256 data⟩

def request (cfg : Config) : Call → Option Request
  | .create data => some (requestOf cfg data)
  | _ => none

structure Matches (q : Request) (p : Payment) : Prop where
  key : p.key = q.key
  fingerprint : p.requestFingerprint = q.fingerprint

/-- Where a call of `create` is. From `owner` to `stored` it holds the claim on its key. -/
inductive Stage where
  | fresh
  | refused
  | left
  | replaying (paymentId : Uuid)
  | replayed (found : Option Payment)
  | owner
  | drafted (paymentId : Uuid)
  | charged (paymentId : Uuid)
  | stored (payment : Payment)
  | completed (payment : Payment)
  | released

/-- The identifier of a payment that is not saved yet. -/
def Stage.draft : Stage → Option Uuid
  | .drafted paymentId => some paymentId
  | .charged paymentId => some paymentId
  | _ => none

def ok (q : Request) : Stage → Effect → Prop
  | .fresh, .coordinator (.acquire key fingerprint) => key = q.key ∧ fingerprint = q.fingerprint
  | .replaying paymentId, .store (.get id) => id = paymentId
  | .owner, .store (.getByIdempotency key) => key = q.key
  | .owner, .host .uuid4 => True
  | g, .store (.save p) => g.draft = some p.id ∧ Matches q p
  | g, .store (.saveWithEvents p _) => g.draft = some p.id ∧ Matches q p
  | .drafted _, .store (.append _) => True
  | .drafted _, .host _ => True
  | .drafted _, .circuit _ => True
  | .drafted _, .stats _ => True
  | .drafted _, .semaphore _ => True
  | .drafted _, .provider (.healthCheck _) => True
  | .drafted _, .provider (.choose _) => True
  | .drafted _, .provider (.startPayment _ _ _ _ _) => True
  | .drafted _, .provider (.finishPayment _ _) => True
  | .drafted _, .coordinator (.abort key fingerprint) =>
    key = q.key ∧ fingerprint = q.fingerprint
  | .charged _, e => e.settling
  | .stored _, .store (.append _) => True
  | .stored p, .coordinator (.complete key fingerprint paymentId) =>
    key = q.key ∧ fingerprint = q.fingerprint ∧ paymentId = p.id
  | _, _ => False

def may : (e : Effect) → e.Reply → Prop
  | .coordinator (.acquire _ _), .error x => x = .cancelled
  | .coordinator (.complete _ _ _), .error _ => False
  | .coordinator (.abort _ _), .error _ => False
  | .store (.get _), .error _ => False
  | .store (.getByIdempotency _), r => r = .ok none
  | .store (.save _), .error _ => False
  | .store (.saveWithEvents _ _), .error _ => False
  | .store (.append _), .error _ => False
  | _, _ => True

/-- The stage a decision of the coordinator leads to. -/
def decided : Except Exn IdempotencyDecision → Stage
  | .ok ⟨.claimed, _⟩ => .owner
  | .ok ⟨.conflict, _⟩ => .refused
  | .ok ⟨.completed, some paymentId⟩ => .replaying paymentId
  | .ok ⟨.completed, none⟩ => .replayed none
  | .error _ => .left

def next : Stage → (e : Effect) → e.Reply → Stage
  | .fresh, .coordinator (.acquire _ _), r => decided r
  | .replaying _, .store (.get _), .ok found => .replayed found
  | .owner, .host .uuid4, id => .drafted id
  | .drafted id, .provider (.finishPayment _ _), .ok _ => .charged id
  | .drafted _, .coordinator (.abort _ _), _ => .released
  | .drafted _, .store (.save p), _ => .stored p
  | .charged _, .store (.save p), _ => .stored p
  | .drafted _, .store (.saveWithEvents p _), _ => .stored p
  | .charged _, .store (.saveWithEvents p _), _ => .stored p
  | .stored p, .coordinator (.complete _ _ _), _ => .completed p
  | g, _, _ => g

def protocol (q : Request) : Protocol Effect Effect.Reply Stage := ⟨ok q, fun _ => may, next⟩

/-- The owner of a claim returns what it has saved as succeeded, and raises a provider error
after it has saved a failure. -/
def Concluded : Except Exn Payment → Payment → Prop
  | .ok p', p => p' = p ∧ p.status = .succeeded
  | .error x, p => p.status = .failed ∧ ∃ error, x = .provider error

/-- How a call of `create` ends. -/
def post : Except Exn Payment → Stage → Prop
  | .ok p, g => g = .completed p ∧ Concluded (.ok p) p ∨ g = .replayed (some p)
  | .error x, g => g = .refused ∧ x = conflict ∨ g = .left ∧ x = .cancelled ∨ g = .released ∨
      g = .replayed none ∨ ∃ p, g = .completed p ∧ Concluded (.error x) p

section Draft

variable {cfg : Config} {q : Request}

def Drafted (q : Request) (s : Locals) (g : Stage) : Prop :=
  s.claimed = true ∧ ∃ p, s.payment = some p ∧ Matches q p ∧ g = .drafted p.id

def Charged (q : Request) (s : Locals) (g : Stage) : Prop :=
  s.claimed = true ∧ ∃ p, s.payment = some p ∧ Matches q p ∧ g = .charged p.id

theorem drafted_before (s : Locals) (g : Stage) (e : Effect) (h : Drafted q s g)
    (he : e.trying ∨ e.recording) : (protocol q).ok g e ∧
      ∀ r, (protocol q).may g e r → Drafted q s ((protocol q).next g e r) := by
  obtain ⟨claimed, p, hp, hm, rfl⟩ := h
  cases e with
  | host e => exact ⟨trivial, fun _ _ => ⟨claimed, p, hp, hm, rfl⟩⟩
  | circuit e => exact ⟨trivial, fun _ _ => ⟨claimed, p, hp, hm, rfl⟩⟩
  | stats e => exact ⟨trivial, fun _ _ => ⟨claimed, p, hp, hm, rfl⟩⟩
  | semaphore e => exact ⟨trivial, fun _ _ => ⟨claimed, p, hp, hm, rfl⟩⟩
  | provider e =>
    cases e with
    | startPayment => exact ⟨trivial, fun _ _ => ⟨claimed, p, hp, hm, rfl⟩⟩
    | _ => exact (he.elim id id).elim
  | store e =>
    cases e with
    | append events => exact ⟨trivial, fun _ _ => ⟨claimed, p, hp, hm, rfl⟩⟩
    | _ => exact (he.elim id id).elim
  | _ => exact (he.elim id id).elim

theorem drafted_finish (s : Locals) (g : Stage) (provider : Provider) (paymentId : Uuid)
    (h : Drafted q s g) : (protocol q).ok g (.provider (.finishPayment provider paymentId)) ∧
      ∀ r, (protocol q).may g (.provider (.finishPayment provider paymentId)) r → match r with
        | .ok _ => Charged q s ((protocol q).next g (.provider (.finishPayment provider paymentId)) r)
        | .error _ =>
          Drafted q s ((protocol q).next g (.provider (.finishPayment provider paymentId)) r) := by
  obtain ⟨claimed, p, hp, hm, rfl⟩ := h
  refine ⟨trivial, fun r _ => ?_⟩
  cases r with
  | ok result => exact ⟨claimed, p, hp, hm, rfl⟩
  | error x => exact ⟨claimed, p, hp, hm, rfl⟩

theorem charged_after (s : Locals) (g : Stage) (e : Effect) (h : Charged q s g)
    (he : e.settling) : (protocol q).ok g e ∧
      ∀ r, (protocol q).may g e r → Charged q s ((protocol q).next g e r) := by
  obtain ⟨claimed, p, hp, hm, rfl⟩ := h
  cases e with
  | store e =>
    cases e with
    | append events => exact ⟨trivial, fun _ _ => ⟨claimed, p, hp, hm, rfl⟩⟩
    | _ => exact he.elim
  | host e => exact ⟨he, fun _ _ => ⟨claimed, p, hp, hm, rfl⟩⟩
  | circuit e => exact ⟨he, fun _ _ => ⟨claimed, p, hp, hm, rfl⟩⟩
  | stats e => exact ⟨he, fun _ _ => ⟨claimed, p, hp, hm, rfl⟩⟩
  | semaphore e => exact ⟨he, fun _ _ => ⟨claimed, p, hp, hm, rfl⟩⟩
  | _ => exact he.elim

theorem drafted_perform {e : Effect} (h : ∀ id, ok q (.drafted id) e)
    (hn : ∀ id r, next (.drafted id) e r = .drafted id) :
    Keeps (protocol q) (Drafted q) (perform e) := by
  rintro s _ ⟨claimed, p, hp, hm, rfl⟩
  exact ⟨h p.id, fun r _ => ⟨claimed, p, hp, hm, hn p.id r⟩⟩

theorem turns_visit (payment : Payment) (provider : Provider) (data : PaymentInput) :
    Turns (protocol q) (Drafted q) (Charged q) (attemptProvider cfg payment provider data) := by
  have extend {s : Locals} {p : Payment} (hp : s.payment = some p) :
      (extendAttempts s).payment = some { p with attempts := p.attempts ++ s.attempts } := by
    rw [extendAttempts, hp]
    rfl
  apply turns_attemptProvider
  · exact fun _ _ _ h => h
  · rintro s _ ⟨claimed, p, hp, hm, rfl⟩
    exact ⟨claimed, _, extend hp, ⟨hm.key, hm.fingerprint⟩, rfl⟩
  · rintro s _ ⟨claimed, p, hp, hm, rfl⟩
    exact ⟨claimed, _, extend hp, ⟨hm.key, hm.fingerprint⟩, rfl⟩
  · exact turns_operation drafted_before drafted_finish charged_after (fun _ _ _ _ _ h => h)
      (fun _ _ _ h => h) (fun _ _ _ h => h) provider payment data
  · exact drafted_perform (fun _ => trivial) fun _ _ => rfl
  · exact fun _ => keeps_await (drafted_perform (fun _ => trivial) fun _ _ => rfl)

/-- Drawing identifiers and reading the clock leaves a draft where it is. -/
theorem paymentEvents_wp (payment : Payment) (last : EventType) {s : Locals} {g : Stage}
    (hg : g.draft.isSome) : wp (protocol q) (paymentEvents payment last)
      (fun r s' g' => (∃ events, r = .ok events) ∧ s' = s ∧ g' = g) s g := by
  have hosts {e : HostEffect} (he : (Effect.host e).hosting) :
      Succeeds (protocol q) (fun s' g' => s' = s ∧ g' = g) (perform (.host e)) := by
    apply succeeds_effect
    rintro s' g' ⟨rfl, rfl⟩
    cases g' with
    | drafted id => exact ⟨trivial, fun _ _ => ⟨rfl, rfl⟩⟩
    | charged id => exact ⟨by cases e <;> exact he, fun _ _ => ⟨rfl, rfl⟩⟩
    | _ => cases hg
  have event (eventType : EventType) (status : PaymentStatus) :
      Succeeds (protocol q) (fun s' g' => s' = s ∧ g' = g) (paymentEvent payment eventType status) :=
    succeeds_bind (hosts trivial) fun _ => succeeds_bind (hosts trivial) fun _ => succeeds_pure _
  exact succeeds_bind (event _ _) (fun _ => succeeds_bind (event _ _) fun _ =>
    succeeds_bind (event _ _) fun _ => succeeds_pure _) s g ⟨rfl, rfl⟩

theorem save_wp (payment : Payment) (events : List EventEnvelope) {s : Locals} {g : Stage}
    (hg : g.draft = some payment.id) (hm : Matches q payment) :
    wp (protocol q) (save cfg payment events)
      (fun r s' g' => r = .ok () ∧ s' = s ∧ g' = .stored payment) s g := by
  have hok : ok q g (.store (.save payment)) := by cases g <;> exact ⟨hg, hm⟩
  have hok' : ok q g (.store (.saveWithEvents payment events)) := by
    cases g <;> exact ⟨hg, hm⟩
  have hn (r) : next g (.store (.save payment)) r = .stored payment := by
    cases g <;> first | rfl | cases hg
  have hn' (r) : next g (.store (.saveWithEvents payment events)) r = .stored payment := by
    cases g <;> first | rfl | cases hg
  unfold save
  split
  · simp only [perform, wp_await, wp_effect]
    refine ⟨hok', fun r hr => ?_⟩
    cases r with
    | error x => exact hr.elim
    | ok => exact ⟨rfl, rfl, hn' _⟩
  · simp only [perform, wp_bind, wp_await, wp_effect]
    refine ⟨hok, fun r hr => ?_⟩
    cases r with
    | error x => exact hr.elim
    | ok =>
      have saved : (protocol q).next g (.store (.save payment)) (.ok ()) = .stored payment := hn _
      simp only [orRaise_ok, saved, wp_onlyIf]
      split
      · rw [wp_await, wp_effect]
        refine ⟨trivial, fun r hr => ?_⟩
        cases r with
        | error x => exact hr.elim
        | ok => exact ⟨rfl, rfl, rfl⟩
      · exact ⟨trivial, trivial, trivial⟩

theorem newPayment_wp (cfg : Config) (data : PaymentInput) {s : Locals} :
    wp (protocol (requestOf cfg data)) (newPayment data (requestFingerprint cfg.sha256 data))
      (fun r s' g => s' = s ∧ ∃ p, r = .ok p ∧ Matches (requestOf cfg data) p ∧
        g = .drafted p.id) s .owner := by
  simp only [newPayment, uuid4, now, perform, wp_bind, wp_effect]
  exact ⟨trivial, fun id _ => ⟨trivial, fun _ _ => ⟨trivial, fun _ _ =>
    ⟨rfl, _, rfl, ⟨rfl, rfl⟩, rfl⟩⟩⟩⟩

end Draft

section Create

variable {cfg : Config} (direct : cfg.coordinator = .direct) (data : PaymentInput)

include direct

theorem finish_wp (payment : Payment) (last : EventType) {s : Locals} {g : Stage}
    (hg : g.draft = some payment.id) (hm : Matches (requestOf cfg data) payment) :
    wp (protocol (requestOf cfg data))
      (finish cfg data (requestFingerprint cfg.sha256 data) payment last)
      (fun r s' g' => r = .ok () ∧ s'.claimed = false ∧ g' = .completed payment) s g := by
  simp only [finish, wp_bind, wp_modify, orRaise_ok]
  apply wp_mono (paymentEvents_wp payment last (by rw [hg]; rfl))
  rintro _ s' g' ⟨⟨events, rfl⟩, rfl, rfl⟩
  simp only [orRaise_ok, wp_bind]
  apply wp_mono (save_wp payment events hg hm)
  rintro _ s' g' ⟨rfl, rfl, rfl⟩
  simp only [orRaise_ok, direct, Coordinator.direct, perform, wp_bind, wp_await, wp_effect]
  refine ⟨⟨rfl, rfl, rfl⟩, fun r hr => ?_⟩
  cases r with
  | error x => exact hr.elim
  | ok => exact ⟨rfl, rfl, rfl⟩

/-- With the claim held, a call ends with its payment completed, or still holds the claim. -/
def Orchestrated (q : Request) (r : Except Exn Payment) (s : Locals) (g : Stage) : Prop :=
  match r with
  | .ok p => g = .completed p ∧ p.status = .succeeded
  | .error x => Drafted q s g ∨ s.claimed = false ∧ ∃ p, g = .completed p ∧ Concluded (.error x) p

theorem orchestrate_wp {s : Locals} (claimed : s.claimed = true) :
    wp (protocol (requestOf cfg data)) (orchestrate cfg data (requestFingerprint cfg.sha256 data))
      (Orchestrated (requestOf cfg data)) s .owner := by
  have health : Keeps (protocol (requestOf cfg data)) (Drafted (requestOf cfg data))
      (healthyProviders cfg.providers) :=
    keeps_of_uses (uses_healthyProviders _) fun s g e hI he => by
      obtain ⟨provider, rfl⟩ := he
      obtain ⟨claimed, p, hp, hm, rfl⟩ := hI
      exact ⟨trivial, fun _ _ => ⟨claimed, p, hp, hm, rfl⟩⟩
  refine wp_mono (Service.orchestrate_wp (I := Drafted (requestOf cfg data))
    (M := Charged (requestOf cfg data)) (L := Drafted (requestOf cfg data))
    (J := fun p _ g => g = .completed p ∧ p.status = .succeeded)
    (K := fun p s g => s.claimed = false ∧ g = .completed p ∧ p.status = .failed)
    (fun _ _ h => h) (fun payment provider => turns_visit payment provider data) ?_ (fun _ _ _ h => h) ?_ health
    (fun _ => keeps_await (drafted_perform (fun _ => trivial) fun _ _ => rfl)) ?_) ?_
  · rintro payment provider result s g ⟨claimed, p, hp, hm, rfl⟩
    rw [hp, Option.getD_some]
    refine wp_mono (finish_wp direct data _ .paymentSucceeded rfl ⟨hm.key, hm.fingerprint⟩) ?_
    rintro _ s' g' ⟨rfl, -, rfl⟩
    exact ⟨rfl, rfl⟩
  · apply wp_mono (newPayment_wp cfg data)
    rintro _ s' g ⟨rfl, p, rfl, hm, rfl⟩
    exact ⟨p, rfl, claimed, p, rfl, hm, rfl⟩
  · rintro payment s g ⟨claimed, p, hp, hm, rfl⟩
    rw [hp, Option.getD_some]
    refine wp_mono (finish_wp direct data _ .paymentFailed rfl ⟨hm.key, hm.fingerprint⟩) ?_
    rintro _ s' g' ⟨rfl, released, rfl⟩
    exact ⟨released, rfl, rfl⟩
  · intro r s g h
    cases r with
    | ok p => exact h
    | error x =>
      obtain h | ⟨p, error, rfl, released, rfl, failed⟩ := h
      · exact .inl h
      · exact .inr ⟨released, p, rfl, failed, error, rfl⟩

theorem createClaimed_wp {s : Locals} (claimed : s.claimed = true) :
    wp (protocol (requestOf cfg data))
      (createClaimed cfg data (requestFingerprint cfg.sha256 data))
      (Orchestrated (requestOf cfg data)) s .owner := by
  simp only [createClaimed, perform, wp_bind, wp_await, wp_effect]
  refine ⟨rfl, fun r hr => ?_⟩
  obtain rfl : r = .ok none := hr
  exact orchestrate_wp direct data claimed

theorem create_wp {s : Locals} :
    wp (protocol (requestOf cfg data)) (create cfg data) (fun r _ g => post r g) s .fresh := by
  simp only [create, direct, Coordinator.direct, perform, wp_bind, wp_await, wp_effect]
  refine ⟨⟨rfl, rfl⟩, fun r hr => ?_⟩
  cases r with
  | error x =>
    obtain rfl : x = .cancelled := hr
    exact .inr (.inl ⟨rfl, rfl⟩)
  | ok decision =>
    obtain ⟨status, paymentId⟩ := decision
    cases status with
    | conflict => exact .inl ⟨rfl, rfl⟩
    | completed =>
      simp only [orRaise_ok, replay, storedResult, wp_bind]
      cases paymentId with
      | none => exact .inr (.inr (.inr (.inl rfl)))
      | some paymentId =>
        simp only [Service.get, perform, wp_await, wp_effect]
        refine ⟨rfl, fun r hr => ?_⟩
        obtain x | (_ | p) := r
        · exact hr.elim
        · exact .inr (.inr (.inr (.inl rfl)))
        · exact .inr rfl
    | claimed =>
      simp only [orRaise_ok, wp_bind, wp_modify, wp_attempt]
      apply wp_mono (createClaimed_wp direct data rfl)
      intro r s' g h
      cases r with
      | ok p => exact .inl ⟨h.1, rfl, h.2⟩
      | error x =>
        simp only [orRaise_ok, release, direct, Coordinator.direct, perform, wp_bind, wp_get,
          wp_onlyIf, wp_attempt, wp_await, wp_effect]
        obtain ⟨claimed, p, hp, hm, rfl⟩ | ⟨released, p, rfl, concluded⟩ := h
        · rw [if_pos claimed]
          refine ⟨⟨rfl, rfl⟩, fun r hr => ?_⟩
          cases r with
          | error x => exact hr.elim
          | ok => exact .inr (.inr (.inl rfl))
        · rw [if_neg (by simp [released])]
          exact .inr (.inr (.inr (.inr ⟨p, rfl, concluded⟩)))

end Create

end PySwitch.Claim
