import PySwitch.SqlWorkers

namespace PySwitch.SqlRefunds

open Async Program Service
open SqlAlchemyPaymentRepository

/-- Where a refund is. Up to `loaded` it reads the payment, and from `named` on, where its own
identifier is drawn, it saves what it has made of it. -/
inductive Stage where
  | queued
  | locked (paymentId : Uuid)
  | selected (row : PaymentRow)
  | joined (row : PaymentRow) (attempts : List PaymentAttemptRow)
  | loaded (p : Payment)
  | awaiting (p : Payment) (amount : ℤ)
  | returned (p : Payment) (amount : ℤ)
  | named (p : Payment) (amount : ℤ) (refundId : Uuid)
  | missing (p : Payment) (amount : ℤ) (refundId : Uuid)
  | finding (p : Payment) (amount : ℤ) (refundId : Uuid) (row : PaymentRow)
  | found (p : Payment) (amount : ℤ) (refundId : Uuid) (row : PaymentRow) (refunds : List RefundRow)
  | saved (paymentId : Uuid)
  | released

namespace Stage

/-- The payment that the refund has read and not saved yet. -/
def reading : Stage → Option Uuid
  | .selected row => some row.id
  | .joined row _ => some row.id
  | .loaded p => some p.id
  | .awaiting p _ => some p.id
  | .returned p _ => some p.id
  | .named p _ _ => some p.id
  | .missing p _ _ => some p.id
  | .finding p _ _ _ => some p.id
  | .found p _ _ _ _ => some p.id
  | _ => none

def lock : Stage → Option Uuid
  | .locked paymentId => some paymentId
  | .saved paymentId => some paymentId
  | g => g.reading

theorem lock_of_reading {g : Stage} {id : Uuid} (h : g.reading = some id) : g.lock = some id := by
  cases g <;> first | exact h | cases h

end Stage

/-- The payment as the refund leaves it. -/
def Applied (p : Payment) (amount : ℤ) (refundId : Uuid) (q : Payment) : Prop :=
  ∃ refund : Refund, refund.paymentId = p.id ∧ refund.amount = amount ∧ refund.id = refundId ∧
    q = applyRefund p refund

theorem Applied.id_eq {p q : Payment} {amount : ℤ} {refundId : Uuid}
    (h : Applied p amount refundId q) : q.id = p.id := by
  obtain ⟨refund, -, -, -, rfl⟩ := h
  rfl

/-- What a refund performs of the service. -/
def ok : Stage → Effect → Prop
  | _, .host .now => True
  | _, .host .uuid4 => True
  | .queued, .refundLock (.acquire _) => True
  | g, .refundLock (.release paymentId) => g.lock = some paymentId
  | .locked paymentId, .store (.get id) => id = paymentId
  | .loaded p, .provider (.startRefund _ paymentId amount) =>
    paymentId = p.id ∧ amount ≤ p.amount - p.refundedAmount
  | .awaiting _ _, .provider (.finishRefund _ _ _) => True
  | .named p _ _, .store (.reread q) => q = p
  | .named p amount refundId, .store (.save q) => Applied p amount refundId q
  | .named p amount refundId, .store (.saveWithEvents q _) => Applied p amount refundId q
  | .saved _, .store (.append _) => True
  | _, _ => False

def may : (e : Effect) → e.Reply → Prop
  | .store (.get paymentId), r => ∃ found : Option Payment,
    r = .ok found ∧ ∀ p, found = some p → p.id = paymentId
  | .store (.save _), r => r = .ok ()
  | .store (.saveWithEvents _ _), r => r = .ok ()
  | .store (.append _), r => r = .ok ()
  | .store (.reread p), q => q = p
  | _, _ => True

def next : Stage → (e : Effect) → e.Reply → Stage
  | .queued, .refundLock (.acquire paymentId), .ok _ => .locked paymentId
  | _, .refundLock (.release _), _ => .released
  | .locked _, .store (.get _), .ok (some p) => .loaded p
  | .loaded p, .provider (.startRefund _ _ amount), _ => .awaiting p amount
  | .awaiting p amount, .provider (.finishRefund _ _ _), .ok _ => .returned p amount
  | .awaiting p _, .provider (.finishRefund _ _ _), .error _ => .loaded p
  | .returned p amount, .host .uuid4, refundId => .named p amount refundId
  | .named p _ _, .store (.save _), _ => .saved p.id
  | .named p _ _, .store (.saveWithEvents _ _), _ => .saved p.id
  | g, _, _ => g

def protocol : Protocol Effect Effect.Reply Stage := ⟨ok, fun _ => may, next⟩

section Refund

variable {cfg : Config} {s : Locals}

theorem save_wp {p q : Payment} {amount : ℤ} {refundId : Uuid} (events : List EventEnvelope)
    (applied : Applied p amount refundId q) :
    wp protocol (Service.save cfg q events) (fun _ _ g => g = .saved p.id) s
      (.named p amount refundId) := by
  unfold Service.save
  split
  · simp only [perform, wp_await, wp_effect]
    refine ⟨applied, fun r hr => ?_⟩
    obtain rfl : r = .ok () := hr
    rfl
  · simp only [perform, wp_bind, wp_await, wp_effect]
    refine ⟨applied, fun r hr => ?_⟩
    obtain rfl : r = .ok () := hr
    simp only [orRaise_ok, wp_onlyIf, wp_await, wp_effect]
    split
    · refine ⟨trivial, fun r hr => ?_⟩
      obtain rfl : r = .ok () := hr
      rfl
    · rfl

theorem refundLocked_wp (paymentId : Uuid) (amount : Option ℤ) :
    wp protocol (refundLocked cfg paymentId amount) (fun _ _ g => g.lock = some paymentId) s
      (.locked paymentId) := by
  simp only [refundLocked, Service.get, perform, wp_bind, wp_await, wp_effect]
  refine ⟨rfl, fun r hr => ?_⟩
  obtain ⟨found, rfl, identified⟩ := hr
  cases found with
  | none => rfl
  | some p =>
    obtain rfl : p.id = paymentId := identified p rfl
    simp only [orRaise_ok, wp_ite, wp_raise]
    split
    · rfl
    split
    · rfl
    rename_i bounds
    split
    · rfl
    simp only [wp_bind, wp_effect]
    refine ⟨⟨rfl, by omega⟩, fun _ _ => ?_⟩
    simp only [orRaise_ok, wp_bind, wp_await, wp_effect]
    refine ⟨trivial, fun r _ => ?_⟩
    cases r with
    | error x => rfl
    | ok result =>
      simp only [orRaise_ok, uuid4, now, perform, paymentEvent, newEvent, wp_bind, wp_effect,
        wp_pure]
      refine ⟨trivial, fun refundId _ => ⟨trivial, fun createdAt _ => ⟨rfl, fun q hq =>
        ⟨trivial, fun eventId _ => ⟨trivial, fun occurredAt _ => ?_⟩⟩⟩⟩⟩
      obtain rfl : p = q := hq.symm
      refine wp_mono (save_wp _ ⟨_, rfl, rfl, rfl, rfl⟩) ?_
      intro r s' g' hg
      subst hg
      cases r <;> rfl

theorem refund_wp (paymentId : Uuid) (amount : Option ℤ) :
    wp protocol (refund cfg paymentId amount) (fun _ _ _ => True) s .queued := by
  simp only [refund, perform, wp_bind, wp_await, wp_effect]
  refine ⟨trivial, fun r _ => ?_⟩
  cases r with
  | error x => trivial
  | ok =>
    simp only [orRaise_ok, wp_ensure]
    apply wp_mono (refundLocked_wp paymentId amount)
    intro r s' g hg
    refine ⟨?_, fun _ _ => trivial⟩
    cases g <;> exact hg

end Refund

/-- The unit of work of a payment that was found with these rows. -/
def Written (q : Payment) (row : PaymentRow) (refunds : List RefundRow) (work : UnitOfWork) : Prop :=
  ∃ events merchant attempts, work = unitOfWork q events merchant (some ⟨row, attempts, refunds⟩)

/-- The unit of work of a payment that was not found. -/
def Inserted (q : Payment) (work : UnitOfWork) : Prop :=
  ∃ events merchant, work = unitOfWork q events merchant none

/-- The statements a refund executes. -/
def sqlOk : Stage → SqlEffect → Prop
  | .locked paymentId, .selectPayment id => id = paymentId
  | .selected row, .selectAttempts id => id = row.id
  | .joined row _, .selectRefunds id => id = row.id
  | .named _ _ _, .selectMerchant _ => True
  | .named p _ _, .selectPayment id => id = p.id
  | .finding p _ _ _, .selectAttempts id => id = p.id
  | .finding p _ _ _, .selectRefunds id => id = p.id
  | .missing p amount refundId, .commit work =>
    ∃ q, Applied p amount refundId q ∧ Inserted q work
  | .found p amount refundId row refunds, .commit work =>
    ∃ q, Applied p amount refundId q ∧ Written q row refunds work
  | .saved _, .commit work => ∃ events, work = { events := events }
  | _, _ => False

def sqlMay : (e : SqlEffect) → e.Reply → Prop
  | .selectPayment paymentId, row => ∀ found : PaymentRow, row = some found → found.id = paymentId
  | _, _ => True

def sqlNext : Stage → (e : SqlEffect) → e.Reply → Stage
  | .locked _, .selectPayment _, some row => .selected row
  | .selected row, .selectAttempts _, attempts => .joined row attempts
  | .joined row attempts, .selectRefunds _, refunds =>
    .loaded (LoadedPayment.toDomain ⟨row, attempts, refunds⟩)
  | .named p amount refundId, .selectPayment _, none => .missing p amount refundId
  | .named p amount refundId, .selectPayment _, some row => .finding p amount refundId row
  | .finding p amount refundId row, .selectRefunds _, refunds =>
    .found p amount refundId row refunds
  | .missing p _ _, .commit _, _ => .saved p.id
  | .found p _ _ _ _, .commit _, _ => .saved p.id
  | g, _, _ => g

def workerOk (g : Stage) : WorkerEffect → Prop
  | .service e => (∀ a, e ≠ .store a) ∧ ok g e
  | .sql e => sqlOk g e

def workerMay : (e : WorkerEffect) → e.Reply → Prop
  | .service e, r => may e r
  | .sql e, r => sqlMay e r

def workerNext (g : Stage) : (e : WorkerEffect) → e.Reply → Stage
  | .service e, r => next g e r
  | .sql e, r => sqlNext g e r

def workerProtocol : Protocol WorkerEffect WorkerEffect.Reply Stage :=
  ⟨workerOk, fun _ => workerMay, workerNext⟩

theorem get_wp {paymentId : Uuid} :
    wp workerProtocol (SqlAlchemyPaymentRepository.get paymentId) (fun r _ g =>
      may (.store (.get paymentId)) r ∧ g = next (.locked paymentId) (.store (.get paymentId)) r)
      () (.locked paymentId) := by
  simp only [SqlAlchemyPaymentRepository.get, find, execute, wp_bind, wp_effect]
  refine ⟨rfl, fun found hf => ?_⟩
  cases found with
  | none => exact ⟨⟨none, rfl, nofun⟩, rfl⟩
  | some row =>
    obtain rfl : row.id = paymentId := hf row rfl
    simp only [orRaise_ok, load, execute, wp_bind, wp_effect, wp_pure]
    refine ⟨rfl, fun attempts _ => ⟨rfl, fun refunds _ => ⟨⟨_, rfl, ?_⟩, rfl⟩⟩⟩
    intro p hp
    cases hp
    rfl

theorem saveWithEvents_wp {p q : Payment} {amount : ℤ} {refundId : Uuid}
    {events : List EventEnvelope} (applied : Applied p amount refundId q) :
    wp workerProtocol (saveWithEvents q events) (fun r _ g => r = .ok () ∧ g = .saved p.id) ()
      (.named p amount refundId) := by
  have same : q.id = p.id := applied.id_eq
  simp only [saveWithEvents, find, execute, wp_bind, wp_effect]
  refine ⟨trivial, fun merchant _ => ⟨same, fun found hf => ?_⟩⟩
  cases found with
  | none => exact ⟨⟨q, applied, _, _, rfl⟩, fun _ _ => ⟨rfl, rfl⟩⟩
  | some row =>
    have identified : row.id = p.id := (hf row rfl).trans same
    exact ⟨identified, fun attempts _ => ⟨identified, fun refunds _ =>
      ⟨⟨q, applied, _, _, attempts, rfl⟩, fun _ _ => ⟨rfl, rfl⟩⟩⟩⟩

theorem carries {g : Stage} {e : Effect} (hok : ok g e) :
    (carryOut e).Follows workerProtocol (fun r g' => may e r ∧ g' = next g e r) g := by
  by_cases stored : ∃ a, e = .store a
  · obtain ⟨a, rfl⟩ := stored
    cases a with
    | get id =>
      cases g with
      | locked paymentId =>
        obtain rfl : id = paymentId := hok
        exact start_follows get_wp
      | _ => exact hok.elim
    | save q =>
      cases g with
      | named p amount refundId => exact start_follows (saveWithEvents_wp hok)
      | _ => exact hok.elim
    | saveWithEvents q events =>
      cases g with
      | named p amount refundId => exact start_follows (saveWithEvents_wp hok)
      | _ => exact hok.elim
    | append events =>
      cases g with
      | saved paymentId => exact ⟨⟨events, rfl⟩, fun _ _ => ⟨rfl, rfl⟩⟩
      | _ => exact hok.elim
    | reread q =>
      cases g with
      | named p amount refundId => exact ⟨rfl, rfl⟩
      | _ => exact hok.elim
    | getByIdempotency key => cases g <;> exact hok.elim
  · have other : ∀ a, e ≠ .store a := fun a h => stored ⟨a, h⟩
    rw [carryOut_service other]
    exact ⟨⟨other, hok⟩, fun r hr => ⟨hr, rfl⟩⟩

def discipline : Discipline RefundCall WorkerEffect WorkerEffect.Reply (Except Exn Refund) Stage :=
  ⟨fun _ => workerProtocol, fun _ => .queued, fun _ _ _ => True⟩

theorem run_follows (profile : Profile) (worker : Tid → ℕ) (cfg : Config) (c : RefundCall) :
    ((workers profile worker cfg).program c).Follows workerProtocol (fun _ _ => True) .queued :=
  Coroutine.Follows.handle (P := protocol) (fun _ _ => carries)
    (start_follows (refund_wp c.paymentId c.amount))

end PySwitch.SqlRefunds
