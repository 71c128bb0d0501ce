import PySwitch.Machine
import PySwitch.ServiceFootprint

namespace PySwitch.Ledger

open Async Program Service

/-- What the refunds of a payment say about its other fields. -/
structure Consistent (p : Payment) : Prop where
  positive : 0 < p.amount
  nonneg : 0 ≤ p.refundedAmount
  bounded : p.refundedAmount ≤ p.amount
  total : p.refundedAmount = (p.refunds.map Refund.amount).sum
  refunded : p.status = .refunded ↔ p.refundedAmount = p.amount
  failed : p.status = .failed → p.refunds = []

/-- A payment nothing has been refunded of. -/
structure Unrefunded (id : Uuid) (amount : ℤ) (p : Payment) : Prop where
  id_eq : p.id = id
  amount_eq : p.amount = amount
  refundedAmount_eq : p.refundedAmount = 0
  refunds_eq : p.refunds = []

def Final (p : Payment) : Prop := p.status = .succeeded ∨ p.status = .failed

/-- The remainder of the payment covers the amount. -/
structure Refunding (p : Payment) (amount : ℤ) : Prop where
  status : refundable p = true
  positive : 0 < amount
  covered : amount ≤ p.amount - p.refundedAmount

theorem Unrefunded.consistent {id : Uuid} {amount : ℤ} {p : Payment} (h : Unrefunded id amount p)
    (positive : 0 < amount) (final : Final p) : Consistent p := by
  obtain ⟨-, ha, hr, hl⟩ := h
  have hs : p.status ≠ .refunded := by
    obtain hs | hs := final <;> simp [hs]
  exact {
    positive := by omega
    nonneg := by omega
    bounded := by omega
    total := by simp [hr, hl]
    refunded := ⟨fun h => absurd h hs, fun h => by omega⟩
    failed := fun _ => hl }

theorem Consistent.applyRefund {p : Payment} (h : Consistent p) {refund : Refund}
    (hr : Refunding p refund.amount) : Consistent (applyRefund p refund) := by
  obtain ⟨status, positive, covered⟩ := hr
  have hs : p.status = .succeeded := by
    have hn : p.status ≠ .refunded := fun hs => by
      have := h.refunded.mp hs
      omega
    simpa [refundable, hn] using status
  have total : p.refundedAmount + refund.amount =
      ((p.refunds ++ [refund]).map Refund.amount).sum := by
    simp [h.total]
  by_cases hfull : p.refundedAmount + refund.amount = p.amount
  · exact {
      positive := h.positive
      nonneg := by have := h.nonneg; simp only [Service.applyRefund]; omega
      bounded := by simp only [Service.applyRefund]; omega
      total := total
      refunded := by simp [Service.applyRefund, hfull]
      failed := by simp [Service.applyRefund, hfull] }
  · exact {
      positive := h.positive
      nonneg := by have := h.nonneg; simp only [Service.applyRefund]; omega
      bounded := by simp only [Service.applyRefund]; omega
      total := total
      refunded := by simp [Service.applyRefund, hfull, hs]
      failed := by simp [Service.applyRefund, hfull, hs] }

/-- Where a call is in what it does to payments. The stages up to `draft` and from there to
`outside` are those of `create`, the ones from `queued` on those of `refund`. -/
inductive Stage where
  | outside
  | ordered (amount : ℤ)
  | draft (id : Uuid) (amount : ℤ)
  | queued
  | locked (paymentId : Uuid)
  | loaded (payment : Payment)
  | awaiting (payment : Payment) (amount : ℤ)
  | settling (payment : Payment) (amount : ℤ)
  | applying (payment : Payment) (amount : ℤ)
  | settled (paymentId : Uuid)
  | unlocked (refunded : Bool)

/-- The payment whose lock the call holds. -/
def Stage.lock : Stage → Option Uuid
  | .locked paymentId => some paymentId
  | .loaded payment => some payment.id
  | .awaiting payment _ => some payment.id
  | .settling payment _ => some payment.id
  | .applying payment _ => some payment.id
  | .settled paymentId => some paymentId
  | _ => none

def Stage.saveable : Stage → Payment → Prop
  | .draft id amount, p => Unrefunded id amount p ∧ Final p
  | .applying q amount, p => ∃ refund : Refund, refund.amount = amount ∧ p = applyRefund q refund
  | _, _ => False

/-- A refund that has saved nothing appends nothing either. -/
def Stage.appendable : Stage → Prop
  | .outside => True
  | .ordered _ => True
  | .draft _ _ => True
  | .settled _ => True
  | _ => False

/-- Between a refund at the provider and its record the call does not suspend. -/
def Stage.pending : Stage → Prop
  | .settling _ _ => True
  | .applying _ _ => True
  | _ => False

def ok (profile : Profile) : Stage → Effect → Prop
  | _, .host .now => True
  | _, .host .uuid4 => True
  | .settling q _, .store (.reread p) => p = q
  | _, .store (.reread _) => False
  | g, .store (.save p) => g.saveable p
  | g, .store (.saveWithEvents p _) => g.saveable p
  | g, .store (.append _) => g.appendable
  | .settling _ _, _ => False
  | .applying _ _, _ => False
  | .locked paymentId, .store (.get id) => id = paymentId
  | .queued, .refundLock (.acquire _) => True
  | _, .refundLock (.acquire _) => False
  | .awaiting _ _, .refundLock (.release _) => False
  | g, .refundLock (.release paymentId) => g.lock = some paymentId
  | .loaded q, .provider (.startRefund _ paymentId amount) => paymentId = q.id ∧ Refunding q amount
  | _, .provider (.startRefund _ _ _) => False
  | .awaiting q amount, .provider (.finishRefund _ paymentId amount') =>
    paymentId = q.id ∧ amount' = amount
  | _, .provider (.finishRefund _ _ _) => False
  | _, .coordinator _ => profile.coordinator = .memory
  | _, _ => True

def may : (e : Effect) → e.Reply → Prop
  | .store (.get paymentId), .ok found => ∀ p, found = some p → p.id = paymentId
  | .store (.get _), .error _ => False
  | .store (.save _), .error _ => False
  | .store (.saveWithEvents _ _), .error _ => False
  | .store (.append _), .error _ => False
  | .store (.reread p), p' => p' = p
  | .coordinator (.complete _ _ _), .error x => ∀ error, x ≠ .provider error
  | _, _ => True

def next : Stage → (e : Effect) → e.Reply → Stage
  | .ordered amount, .host .uuid4, id => .draft id amount
  | .draft _ _, .store (.save _), _ => .outside
  | .draft _ _, .store (.saveWithEvents _ _), _ => .outside
  | .queued, .refundLock (.acquire paymentId), .ok _ => .locked paymentId
  | .locked _, .store (.get _), .ok (some p) => .loaded p
  | .loaded p, .provider (.startRefund _ _ amount), _ => .awaiting p amount
  | .awaiting p amount, .provider (.finishRefund _ _ _), .ok _ => .settling p amount
  | .awaiting p _, .provider (.finishRefund _ _ _), .error _ => .loaded p
  | .settling p amount, .store (.reread _), _ => .applying p amount
  | .settling p _, .store (.save _), _ => .settled p.id
  | .settling p _, .store (.saveWithEvents _ _), _ => .settled p.id
  | .applying p _, .store (.save _), _ => .settled p.id
  | .applying p _, .store (.saveWithEvents _ _), _ => .settled p.id
  | .settled _, .refundLock (.release _), _ => .unlocked true
  | .locked _, .refundLock (.release _), _ => .unlocked false
  | .loaded _, .refundLock (.release _), _ => .unlocked false
  | g, _, _ => g

def protocol (profile : Profile) : Protocol Effect Effect.Reply Stage :=
  ⟨ok profile, fun _ => may, next⟩

/-- The stages of `create`. -/
def Stage.creating : Stage → Prop
  | .outside => True
  | .ordered _ => True
  | .draft _ _ => True
  | _ => False

/-- The effects of `create` other than saving its payment and drawing the identifier. -/
def plain (profile : Profile) : Effect → Prop
  | .host .uuid4 => False
  | .store (.reread _) => False
  | .store (.save _) => False
  | .store (.saveWithEvents _ _) => False
  | .refundLock _ => False
  | .provider (.startRefund _ _ _) => False
  | .provider (.finishRefund _ _ _) => False
  | .coordinator _ => profile.coordinator = .memory
  | _ => True

theorem plain_neutral {profile : Profile} {g : Stage} {e : Effect} (hg : g.creating)
    (he : plain profile e) : ok profile g e ∧ ∀ r, next g e r = g := by
  cases g <;> first
    | exact hg.elim
    | (cases e with
      | host e => cases e <;> first | exact he.elim | exact ⟨trivial, fun _ => rfl⟩
      | store e => cases e <;> first | exact he.elim | exact ⟨trivial, fun _ => rfl⟩
      | provider e => cases e <;> first | exact he.elim | exact ⟨trivial, fun _ => rfl⟩
      | refundLock e => exact he.elim
      | coordinator e => exact ⟨he, fun _ => rfl⟩
      | _ => exact ⟨trivial, fun _ => rfl⟩)

/-- A coordinator that is really there, and that leaves `ProviderError` to providers. -/
structure Reliable (profile : Profile) (c : Coordinator) : Prop where
  acquire : ∀ key fingerprint, Uses (plain profile) (c.acquire key fingerprint)
  complete : ∀ key fingerprint paymentId, Uses (plain profile) (c.complete key fingerprint paymentId)
  abort : ∀ key fingerprint, Uses (plain profile) (c.abort key fingerprint)
  complete_ends : ∀ key fingerprint paymentId,
    Ends may (fun r => ∀ error, r ≠ .error (.provider error))
      (c.complete key fingerprint paymentId)

theorem reliable_direct {profile : Profile} (h : profile.coordinator = .memory) :
    Reliable profile .direct where
  acquire _ _ := uses_await (uses_effect h)
  complete _ _ _ := uses_await (uses_effect h)
  abort _ _ := uses_await (uses_effect h)
  complete_ends key fingerprint paymentId s := by
    simp only [Coordinator.direct, perform, wp_await, wp_effect]
    refine ⟨trivial, ?_⟩
    rintro (x | _) hr error
    · exact fun hx => hr error (Except.error.inj hx)
    · exact nofun

theorem ends_guarded {α : Type} (m : Service α) :
    Ends may (fun r => ∀ error, r ≠ .error (.provider error)) (Coordinator.guarded m) := by
  intro s
  have paths : ∀ s, wp ⟨fun _ _ => True, fun _ => may, fun _ _ _ => ()⟩ m (fun _ _ _ => True) s () := by
    intro s
    unfold wp
    generalize m s = c
    induction c with
    | done a => trivial
    | perform e k ih => exact ⟨trivial, fun r _ => ih r⟩
  simp only [Coordinator.guarded, wp_bind, wp_attempt]
  refine wp_mono (paths s) ?_
  rintro (x | a) s' g -
  · cases x <;> exact nofun
  · exact nofun

theorem reliable_redis (profile : Profile) (sha256 : List Char → String) (ttl : ℕ) :
    Reliable profile (.redis sha256 ttl) where
  acquire _ _ := Coordinator.uses_guarded (uses_await (uses_effect trivial))
  complete _ _ _ := Coordinator.uses_guarded (uses_bind (uses_await (uses_effect trivial))
    fun _ => uses_await (uses_effect trivial))
  abort _ _ := Coordinator.uses_guarded (uses_bind (uses_await (uses_effect trivial)) fun _ =>
    uses_onlyIf (uses_await (uses_effect trivial)))
  complete_ends _ _ _ := ends_guarded _

section Create

variable {profile : Profile} {cfg : Config}

/-- The call has drawn its payment and not saved it yet. -/
def Drafted (amount : ℤ) (s : Locals) (g : Stage) : Prop :=
  ∃ id p, s.payment = some p ∧ Unrefunded id amount p ∧ g = .draft id amount

def Creating (_ : Locals) (g : Stage) : Prop := g.creating

theorem drafted_neutral (amount : ℤ) (s : Locals) (g : Stage) (e : Effect)
    (h : Drafted amount s g) (he : plain profile e ∨ e.hosting) :
    (protocol profile).ok g e ∧ ∀ r, (protocol profile).may g e r →
      Drafted amount s ((protocol profile).next g e r) := by
  obtain ⟨id, p, hp, hu, rfl⟩ := h
  obtain he | he := he
  · obtain ⟨hok, hn⟩ := plain_neutral (g := .draft id amount) trivial he
    exact ⟨hok, fun r _ => ⟨id, p, hp, hu, hn r⟩⟩
  · cases e with
    | host e => cases e <;> exact ⟨trivial, fun _ _ => ⟨id, p, hp, hu, rfl⟩⟩
    | _ => exact he.elim

theorem drafted_trying (amount : ℤ) (s : Locals) (g : Stage) (e : Effect)
    (h : Drafted amount s g) (he : e.trying ∨ e.recording) :
    (protocol profile).ok g e ∧ ∀ r, (protocol profile).may g e r →
      Drafted amount s ((protocol profile).next g e r) := by
  refine drafted_neutral amount s g e h ?_
  cases e with
  | host e => cases e <;> first | exact .inl trivial | exact .inr trivial
  | store e => cases e <;> first | exact .inl trivial | exact (he.elim id id).elim
  | provider e => cases e <;> first | exact .inl trivial | exact (he.elim id id).elim
  | circuit e => exact .inl trivial
  | stats e => exact .inl trivial
  | semaphore e => exact .inl trivial
  | _ => exact (he.elim id id).elim

theorem attemptProvider_drafted (amount : ℤ) (payment : Payment) (provider : Provider)
    (data : PaymentInput) :
    Keeps (protocol profile) (Drafted amount) (attemptProvider cfg payment provider data) := by
  have perform_plain {e : Effect} (he : plain profile e) :
      Keeps (protocol profile) (Drafted amount) (perform e) :=
    keeps_of_uses (uses_effect he) fun s g e h he => drafted_neutral amount s g e h (.inl he)
  refine keeps_attemptProvider (fun _ _ _ h => h) ?_ ?_ (perform_plain trivial)
    fun _ => keeps_await (perform_plain trivial)
  · rintro s g ⟨id, p, hp, hu, rfl⟩
    exact ⟨id, { p with attempts := p.attempts ++ s.attempts },
      by rw [extendAttempts, hp]; rfl, ⟨hu.id_eq, hu.amount_eq, hu.refundedAmount_eq,
      hu.refunds_eq⟩, rfl⟩
  · exact keeps_operation (neutral_hosting (drafted_trying amount))
      (keeps_recordCircuitTransition (drafted_trying amount)) (fun _ _ _ h => h)
      (fun s g _ _ hd => drafted_neutral amount s g _ hd (.inl trivial)) _ _ _

theorem save_wp (payment : Payment) (events : List EventEnvelope) {s : Locals} {g m : Stage}
    (hok : ok profile g (.store (.save payment)))
    (hok' : ∀ events, ok profile g (.store (.saveWithEvents payment events)))
    (hn : ∀ r, next g (.store (.save payment)) r = m)
    (hn' : ∀ events r, next g (.store (.saveWithEvents payment events)) r = m)
    (happ : ∀ events, ok profile m (.store (.append events)))
    (happ' : ∀ events r, next m (.store (.append events)) r = m) :
    wp (protocol profile) (save cfg payment events)
      (fun r s' g' => r = .ok () ∧ s' = s ∧ g' = m) s g := by
  unfold save
  split
  · simp only [perform, wp_await, wp_effect]
    refine ⟨hok' events, ?_⟩
    rintro (x | ⟨⟩) hr
    · exact hr.elim
    · exact ⟨rfl, rfl, hn' events _⟩
  · simp only [perform, wp_bind, wp_await, wp_effect]
    refine ⟨hok, ?_⟩
    rintro (x | ⟨⟩) hr
    · exact hr.elim
    · have saved : (protocol profile).next g (.store (.save payment)) (.ok ()) = m := hn _
      simp only [orRaise_ok, saved, wp_onlyIf]
      split
      · rw [wp_await, wp_effect]
        refine ⟨happ events, ?_⟩
        rintro (x | ⟨⟩) hr
        · exact hr.elim
        · exact ⟨rfl, rfl, happ' events _⟩
      · exact ⟨trivial, trivial, trivial⟩

theorem paymentEvents_wp (payment : Payment) (last : EventType) {id : Uuid} {amount : ℤ}
    {s : Locals} : wp (protocol profile) (paymentEvents payment last)
      (fun r s' g => (∃ events, r = .ok events) ∧ s' = s ∧ g = .draft id amount) s
      (.draft id amount) := by
  refine wp_of_uses_ends (R := fun _ _ => True) (E := fun r => ∃ events, r = .ok events)
    (J := fun g => g = .draft id amount) (uses_paymentEvents _ _) ?_ ?_ rfl
    fun r g hr hg => ⟨hr, rfl, hg⟩
  · intro s
    simp [paymentEvents, paymentEvent, newEvent, uuid4, now]
  · rintro g e rfl he
    cases e with
    | host e => cases e <;> exact ⟨trivial, fun _ _ => ⟨trivial, rfl⟩⟩
    | _ => exact he.elim

theorem newPayment_wp (data : PaymentInput) (fingerprint : String) {s : Locals} :
    wp (protocol profile) (newPayment data fingerprint)
      (fun r _ g => ∃ id p, r = .ok p ∧ Unrefunded id data.amount p ∧
        g = .draft id data.amount) s (.ordered data.amount) := by
  simp only [newPayment, uuid4, now, perform, wp_bind, wp_effect]
  exact ⟨trivial, fun id _ => ⟨trivial, fun _ _ => ⟨trivial, fun _ _ =>
    ⟨id, _, rfl, ⟨rfl, rfl, rfl, rfl⟩, rfl⟩⟩⟩⟩

variable (reliable : Reliable profile cfg.coordinator)

theorem creating_neutral (s : Locals) (g : Stage) (e : Effect) (h : Creating s g)
    (he : plain profile e) :
    (protocol profile).ok g e ∧ ∀ r, (protocol profile).may g e r →
      Creating s ((protocol profile).next g e r) := by
  obtain ⟨hok, hn⟩ := plain_neutral h he
  exact ⟨hok, fun r _ => by rw [show (protocol profile).next g e r = g from hn r]; exact h⟩

theorem keeps_plain {α : Type} {m : Service α} (h : Uses (plain profile) m) :
    Keeps (protocol profile) Creating m :=
  keeps_of_uses h creating_neutral

theorem replay_creating (decision : IdempotencyDecision) :
    Keeps (protocol profile) Creating (replay decision) := by
  refine keeps_bind ?_ fun existing => ?_
  · unfold storedResult
    split
    · exact keeps_plain (uses_await (uses_effect trivial))
    · exact keeps_pure _
  · cases existing with
    | some payment => exact keeps_pure _
    | none => exact keeps_raise _

include reliable

theorem complete_wp (key : RecordKey) (fingerprint : String) (paymentId : Uuid) {s : Locals}
    {g : Stage} (hg : g.creating) :
    wp (protocol profile) (cfg.coordinator.complete key fingerprint paymentId)
      (fun r s' g' => (∀ error, r ≠ .error (.provider error)) ∧ s' = s ∧ g' = g) s g := by
  refine wp_of_uses_ends (J := fun g' => g' = g) (reliable.complete _ _ _)
    (reliable.complete_ends _ _ _) ?_ rfl fun r g' he hg' => ⟨he, rfl, hg'⟩
  rintro g' e rfl he
  obtain ⟨hok, hn⟩ := plain_neutral hg he
  exact ⟨hok, fun r hm => ⟨hm, hn r⟩⟩

theorem finish_wp (data : PaymentInput) (fingerprint : String) (payment : Payment)
    (last : EventType) {id : Uuid} {amount : ℤ} (hu : Unrefunded id amount payment)
    (hf : Final payment) {s : Locals} :
    wp (protocol profile) (finish cfg data fingerprint payment last)
      (fun r _ g => (∀ error, r ≠ .error (.provider error)) ∧ g = .outside) s
      (.draft id amount) := by
  simp only [finish, wp_bind, wp_modify, orRaise_ok]
  refine wp_mono (paymentEvents_wp payment last) ?_
  rintro _ s' g ⟨⟨events, rfl⟩, rfl, rfl⟩
  simp only [orRaise_ok, wp_bind]
  refine wp_mono (save_wp payment events (g := .draft id amount) (m := .outside) ⟨hu, hf⟩
    (fun _ => ⟨hu, hf⟩) (fun _ => rfl) (fun _ _ => rfl) (fun _ => trivial) fun _ _ => rfl) ?_
  rintro _ s' g ⟨rfl, rfl, rfl⟩
  simp only [orRaise_ok, wp_bind]
  refine wp_mono (complete_wp reliable data.key fingerprint payment.id trivial) ?_
  rintro (x | ⟨⟩) s' g ⟨hr, -, rfl⟩
  · exact ⟨fun error h => hr error h, rfl⟩
  · exact ⟨nofun, rfl⟩

theorem tryCandidate_wp (data : PaymentInput) (fingerprint : String) (payment : Payment)
    (candidate : Provider) {amount : ℤ} {s : Locals} {g : Stage} (hd : Drafted amount s g) :
    wp (protocol profile) (tryCandidate cfg data fingerprint payment candidate)
      (fun r s g => (∃ error, r = .error (.provider error)) ∧ Drafted amount s g ∨
        (∀ error, r ≠ .error (.provider error)) ∧ g.creating) s g := by
  simp only [tryCandidate, wp_bind]
  refine wp_mono (attemptProvider_drafted amount payment candidate data s g hd) ?_
  rintro (x | result) s' g' hd'
  · obtain ⟨id, p, hp, hu, rfl⟩ := id hd'
    cases x with
    | provider error => exact .inl ⟨⟨error, rfl⟩, hd'⟩
    | _ => exact .inr ⟨nofun, trivial⟩
  · obtain ⟨id, p, hp, hu, rfl⟩ := hd'
    simp only [orRaise_ok, current, wp_bind, wp_get, wp_pure, hp, Option.getD_some]
    have succeeded : Unrefunded id amount { p with
        status := .succeeded
        providerReference := some result.reference
        provider := some candidate } :=
      ⟨hu.id_eq, hu.amount_eq, hu.refundedAmount_eq, hu.refunds_eq⟩
    refine wp_mono (finish_wp reliable data fingerprint _ _ succeeded (.inl rfl)) ?_
    rintro (x | ⟨⟩) s'' g'' ⟨hr, rfl⟩
    · exact .inr ⟨fun error h => hr error (by cases h; rfl), trivial⟩
    · exact .inr ⟨nofun, trivial⟩

theorem tryCandidates_wp (data : PaymentInput) (fingerprint : String) (payment : Payment)
    (candidates : List Provider) {amount : ℤ} {s : Locals} {g : Stage}
    (hd : Drafted amount s g) :
    wp (protocol profile) (tryCandidates cfg data fingerprint payment candidates)
      (fun r s g => r = .ok none ∧ Drafted amount s g ∨ r ≠ .ok none ∧ g.creating) s g := by
  induction candidates generalizing s g with
  | nil => exact .inl ⟨rfl, hd⟩
  | cons candidate rest ih =>
    simp only [tryCandidates, wp_bind, wp_attempt]
    refine wp_mono (tryCandidate_wp reliable data fingerprint payment candidate hd) ?_
    rintro r s' g' (⟨⟨error, rfl⟩, hd'⟩ | ⟨hr, hg⟩)
    · simp only [orRaise_ok, wp_bind, wp_modify, wp_ite, wp_pure]
      split
      · exact .inl ⟨trivial, hd'⟩
      · exact ih hd'
    · cases r with
      | ok payment => exact .inr ⟨nofun, hg⟩
      | error x =>
        cases x with
        | provider error => exact absurd rfl (hr error)
        | _ => exact .inr ⟨nofun, hg⟩

theorem orchestrate_wp (data : PaymentInput) (fingerprint : String) {s : Locals} :
    wp (protocol profile) (orchestrate cfg data fingerprint) (fun _ _ g => g.creating) s
      (.ordered data.amount) := by
  simp only [orchestrate, wp_bind]
  refine wp_mono (newPayment_wp data fingerprint) ?_
  rintro _ s' g ⟨id, p, rfl, hu, rfl⟩
  have hd : Drafted data.amount { s' with payment := some p } (.draft id data.amount) :=
    ⟨id, p, rfl, hu, rfl⟩
  have health : Keeps (protocol profile) (Drafted data.amount) (healthyProviders cfg.providers) :=
    keeps_of_uses (uses_healthyProviders _) fun s g e hI he => by
      obtain ⟨q, rfl⟩ := he
      exact drafted_neutral data.amount s g _ hI (.inl trivial)
  have choose (healthy : List Provider) : Keeps (protocol profile) (Drafted data.amount)
      (await (perform (.provider (.choose healthy)))) :=
    keeps_await (keeps_of_uses (A := plain profile) (uses_effect trivial) fun s g e hI he =>
      drafted_neutral data.amount s g e hI (.inl he))
  simp only [orRaise_ok, wp_bind, wp_modify]
  refine wp_mono (health _ _ hd) ?_
  rintro (x | healthy) s' g' hd'
  · obtain ⟨_, _, -, -, rfl⟩ := hd'
    trivial
  simp only [orRaise_ok, wp_bind]
  refine wp_mono (choose healthy _ _ hd') ?_
  rintro (x | provider) s' g' hd'
  · obtain ⟨_, _, -, -, rfl⟩ := hd'
    trivial
  simp only [orRaise_ok, wp_bind]
  refine wp_mono (tryCandidates_wp reliable data fingerprint p _ hd') ?_
  rintro r s' g' (⟨rfl, id, p, hp, hu, rfl⟩ | ⟨hr, hg⟩)
  · simp only [orRaise_ok, current, wp_bind, wp_get, wp_pure, hp, Option.getD_some]
    have failed : Unrefunded id data.amount { p with status := .failed } :=
      ⟨hu.id_eq, hu.amount_eq, hu.refundedAmount_eq, hu.refunds_eq⟩
    refine wp_mono (finish_wp reliable data fingerprint _ .paymentFailed failed (.inr rfl)) ?_
    rintro (x | ⟨⟩) s'' g'' ⟨-, rfl⟩
    · trivial
    · simp only [orRaise_ok, wp_bind, wp_get]
      split <;> trivial
  · obtain x | (_ | payment) := r
    · exact hg
    · exact absurd rfl hr
    · exact hg

theorem createClaimed_wp (data : PaymentInput) (fingerprint : String) {s : Locals} :
    wp (protocol profile) (createClaimed cfg data fingerprint) (fun _ _ g => g.creating) s
      (.ordered data.amount) := by
  simp only [createClaimed, perform, wp_bind, wp_await, wp_effect]
  refine ⟨trivial, ?_⟩
  rintro (x | (_ | existing)) -
  · trivial
  · exact orchestrate_wp reliable data fingerprint
  · simp only [orRaise_ok, wp_ite, wp_raise, wp_bind]
    split
    · trivial
    · refine wp_mono (keeps_plain (reliable.complete _ _ _) _ _ trivial) ?_
      rintro (x | ⟨⟩) s' g' hg <;> exact hg

theorem release_creating (data : PaymentInput) (fingerprint : String) :
    Keeps (protocol profile) Creating (release cfg data fingerprint) := by
  refine keeps_bind keeps_get fun s => keeps_onlyIf ?_
  refine keeps_bind (keeps_attempt (keeps_plain (reliable.abort _ _))) fun answer => ?_
  split
  · exact keeps_raise _
  · exact keeps_pure _

theorem create_wp (data : PaymentInput) {s : Locals} :
    wp (protocol profile) (create cfg data) (fun _ _ g => g.creating) s
      (.ordered data.amount) := by
  simp only [create, wp_bind]
  refine wp_of_uses (J := fun g => g = .ordered data.amount) (reliable.acquire _ _) ?_ rfl ?_
  · rintro g e rfl he
    obtain ⟨hok, hn⟩ := plain_neutral (g := .ordered data.amount) trivial he
    exact ⟨hok, fun r _ => hn r⟩
  rintro (x | decision) g rfl
  · trivial
  simp only [orRaise_ok]
  split
  · trivial
  · exact replay_creating decision _ _ trivial
  · simp only [wp_bind, wp_modify, wp_attempt, orRaise_ok]
    refine wp_mono (createClaimed_wp reliable data _) ?_
    rintro (x | payment) s' g hg
    · exact keeps_bind (release_creating reliable data _) (fun _ => keeps_raise _) s' g hg
    · exact hg

end Create

section Refund

variable {profile : Profile} {cfg : Config}

/-- How a refund ends its work under the lock. -/
def AfterRefund (paymentId : Uuid) (r : Except Exn Refund) (g : Stage) : Prop :=
  match r with
  | .ok _ => g = .settled paymentId
  | .error _ => g = .locked paymentId ∨ ∃ p, p.id = paymentId ∧ g = .loaded p

theorem refundLocked_wp (paymentId : Uuid) (amount : Option ℤ) {s : Locals} :
    wp (protocol profile) (refundLocked cfg paymentId amount)
      (fun r _ g => AfterRefund paymentId r g) s (.locked paymentId) := by
  simp only [refundLocked, Service.get, perform, wp_bind, wp_await, wp_effect]
  refine ⟨rfl, ?_⟩
  rintro (x | (_ | p)) hr
  · exact hr.elim
  · exact .inl rfl
  obtain rfl : p.id = paymentId := hr p rfl
  have loaded (x : Exn) : AfterRefund p.id (.error x) (.loaded p) := .inr ⟨p, rfl, rfl⟩
  simp only [orRaise_ok, wp_ite, wp_raise]
  split
  · exact loaded _
  split
  · exact loaded _
  rename_i refundable bounds
  split
  · simp only [wp_raise]
    exact loaded _
  rename_i provider found
  have refunding : Refunding p (amount.getD (p.amount - p.refundedAmount)) :=
    ⟨by simpa using refundable, by omega, by omega⟩
  simp only [wp_bind, wp_effect]
  refine ⟨⟨rfl, refunding⟩, fun _ _ => ?_⟩
  simp only [orRaise_ok, wp_bind, wp_await, wp_effect]
  refine ⟨⟨rfl, rfl⟩, ?_⟩
  rintro (x | result) -
  · exact loaded x
  simp only [orRaise_ok, uuid4, now, perform, paymentEvent, newEvent, wp_bind, wp_effect, wp_pure]
  refine ⟨trivial, fun id _ => ⟨trivial, fun createdAt _ => ⟨rfl, fun q hq => ?_⟩⟩⟩
  obtain rfl : p = q := hq.symm
  refine ⟨trivial, fun _ _ => ⟨trivial, fun _ _ => ?_⟩⟩
  refine wp_mono (save_wp _ _ (g := .applying p _) (m := .settled p.id) ⟨_, rfl, rfl⟩
    (fun _ => ⟨_, rfl, rfl⟩) (fun _ => rfl) (fun _ _ => rfl) (fun _ => trivial)
    fun _ _ => rfl) ?_
  rintro _ s' g ⟨rfl, rfl, rfl⟩
  rfl

/-- A refund that raises has recorded nothing. -/
theorem refund_wp (paymentId : Uuid) (amount : Option ℤ) {s : Locals} :
    wp (protocol profile) (refund cfg paymentId amount)
      (fun r _ g => match r with
        | .ok _ => g = .unlocked true
        | .error _ => g = .queued ∨ g = .unlocked false) s .queued := by
  simp only [refund, perform, wp_bind, wp_await, wp_effect]
  refine ⟨trivial, ?_⟩
  rintro (x | ⟨⟩) -
  · exact .inl rfl
  simp only [orRaise_ok, wp_ensure]
  refine wp_mono (refundLocked_wp paymentId amount) ?_
  rintro (x | result) s' g hg
  · obtain rfl | ⟨p, rfl, rfl⟩ := hg
    · exact ⟨rfl, fun _ _ => .inr rfl⟩
    · exact ⟨rfl, fun _ _ => .inr rfl⟩
  · obtain rfl : g = .settled paymentId := hg
    exact ⟨rfl, fun _ _ => rfl⟩

end Refund

end PySwitch.Ledger
