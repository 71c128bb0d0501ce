import PySwitch.Admission
import PySwitch.Async.Alone
import PySwitch.SqlRepository

namespace PySwitch.SqlRoundTrip

open Async Program Service
open SqlAlchemyPaymentRepository

/-- The statements of a transaction with no other writer in between. -/
def answer : (e : WorkerEffect) → Database → Answer e.Reply Database
  | .sql e, db => .reply (db.answer e) (db.after e)
  | .service _, _ => .refuse

/-- A transaction by itself: what it returns, and the database it leaves. -/
def alone {α : Type} (m : Transaction α) (db : Database) : Option (Except Exn α) × Database :=
  let (r, db') := Program.alone answer m () db
  (r.map Prod.fst, db')

/-- The row of a payment with those of its relations. -/
def found (db : Database) (id : Uuid) : Option LoadedPayment :=
  (db.payments id).map fun row => ⟨row, db.attemptsOf row.id, db.refundsOf row.id⟩

theorem load_alone (row : Option PaymentRow) (db : Database) :
    Program.alone answer (load row) () db = (some (.ok (row.map fun row =>
      ⟨row, db.attemptsOf row.id, db.refundsOf row.id⟩), ()), db) := by
  cases row <;> rfl

theorem find_alone (id : Uuid) (db : Database) :
    Program.alone answer (find id) () db = (some (.ok (found db id), ()), db) := by
  simp only [find, execute, alone_bind, alone_effect, answer, andThen]
  exact load_alone _ db

theorem get_alone (id : Uuid) (db : Database) :
    alone (get id) db = (some (.ok ((found db id).map LoadedPayment.toDomain)), db) := by
  simp only [alone, SqlAlchemyPaymentRepository.get, alone_bind, find_alone, andThen, alone_pure]
  rfl

theorem save_alone (payment : Payment) (events : List EventEnvelope) (db : Database) :
    alone (saveWithEvents payment events) db = (some (.ok ()), db.write
      (unitOfWork payment events (db.merchants payment.merchantId) (found db payment.id))) := by
  simp only [alone, saveWithEvents, execute, alone_bind, alone_effect, answer, andThen,
    Database.after, find_alone]
  rfl

/-- An attempt with the latency its row has room for. -/
def rounded (item : PaymentAttempt) : PaymentAttempt :=
  { item with latencyMs := roundHalfEven item.latencyMs }

theorem roundHalfEven_intCast (n : ℤ) : roundHalfEven n = n := by
  simp [roundHalfEven]

theorem newAttempt_rounded (id : Uuid) (item : PaymentAttempt) :
    newAttempt id (rounded item) = newAttempt id item := by
  simp only [newAttempt, rounded, roundHalfEven_intCast]

/-- The fields of two payments are the same, but for their attempts and refunds. -/
def SameFields (p q : Payment) : Prop :=
  { q with attempts := p.attempts, refunds := p.refunds } = p

/-- What is read back of a payment. -/
structure Stored (p q : Payment) : Prop where
  fields : SameFields p q
  attempts : q.attempts.Perm (p.attempts.map rounded)
  refunds : q.refunds.Perm p.refunds

theorem SameFields.newRow_eq {p q : Payment} (h : SameFields p q) : newRow q = newRow p := by
  rw [← h]
  rfl

theorem SameFields.id_eq {p q : Payment} (h : SameFields p q) : q.id = p.id := by
  rw [← h]

/-- The rows of a payment, in whatever order those of its relations come. -/
structure Rows (db : Database) (p : Payment) : Prop where
  row : db.payments p.id = some (newRow p)
  attempts : (db.attemptsOf p.id).Perm (p.attempts.map (newAttempt p.id))
  refunds : (db.refundsOf p.id).Perm p.refunds

theorem Rows.found {db : Database} {p : Payment} (h : Rows db p) :
    found db p.id = some ⟨newRow p, db.attemptsOf p.id, db.refundsOf p.id⟩ := by
  rw [SqlRoundTrip.found, h.row]
  rfl

theorem Rows.stored {db : Database} {p q : Payment} (h : Rows db p) (stored : Stored p q) :
    Rows db q := by
  have attempts : (q.attempts.map (newAttempt q.id)).Perm (p.attempts.map (newAttempt p.id)) := by
    have perm := stored.attempts.map (newAttempt p.id)
    simp only [List.map_map, Function.comp_def, newAttempt_rounded] at perm
    rwa [stored.fields.id_eq]
  constructor
  · rw [stored.fields.newRow_eq, stored.fields.id_eq]
    exact h.row
  · rw [stored.fields.id_eq] at attempts ⊢
    exact h.attempts.trans attempts.symm
  · rw [stored.fields.id_eq]
    exact h.refunds.trans stored.refunds.symm

/-- The payment read back, but for the order of its attempts and refunds, which the database does
not determine. -/
structure Rearranged (p q : Payment) : Prop where
  fields : SameFields p q
  attempts : q.attempts.Perm p.attempts
  refunds : q.refunds.Perm p.refunds

theorem Rearranged.refl (p : Payment) : Rearranged p p := ⟨rfl, .refl _, .refl _⟩

theorem Stored.rearranged {p q r : Payment} (stored : Stored p q) (same : Rearranged q r) :
    Stored p r := by
  refine ⟨?_, same.attempts.trans stored.attempts, same.refunds.trans stored.refunds⟩
  rw [SameFields, ← stored.fields, ← same.fields]

/-- What `get` can return of a payment. -/
def Returns (db : Database) (id : Uuid) (q : Payment) : Prop :=
  ∃ p, alone (get id) db = (some (.ok (some p)), db) ∧ Rearranged p q

theorem Rows.loaded {db : Database} {p : Payment} (h : Rows db p) :
    Stored p (LoadedPayment.toDomain ⟨newRow p, db.attemptsOf p.id, db.refundsOf p.id⟩) := by
  refine ⟨rfl, ?_, h.refunds⟩
  have perm := h.attempts.map PaymentAttemptRow.toDomain
  rw [List.map_map] at perm
  exact perm

theorem Rows.get {db : Database} {p : Payment} (h : Rows db p) : alone (get p.id) db =
    (some (.ok (some (LoadedPayment.toDomain
      ⟨newRow p, db.attemptsOf p.id, db.refundsOf p.id⟩))), db) := by
  rw [get_alone, h.found]
  rfl

theorem Rows.returns {db : Database} {p q : Payment} (h : Rows db p) (got : Returns db p.id q) :
    Stored p q := by
  obtain ⟨found, answered, same⟩ := got
  rw [h.get] at answered
  obtain rfl : LoadedPayment.toDomain ⟨newRow p, db.attemptsOf p.id, db.refundsOf p.id⟩ =
      found := by
    simpa using answered
  exact h.loaded.rearranged same

section Write

variable {db : Database} {p : Payment} {events : List EventEnvelope} {merchant : Option Seconds}
  {loaded : Option LoadedPayment}

theorem attemptsOf_write (id : Uuid) (work : UnitOfWork) : (db.write work).attemptsOf id =
    db.attemptsOf id ++ work.attempts.filter fun item => item.paymentId = id :=
  List.filter_append ..

theorem refundsOf_write (id : Uuid) (work : UnitOfWork) : (db.write work).refundsOf id =
    db.refundsOf id ++ work.refunds.filter fun item => item.paymentId = id :=
  List.filter_append ..

theorem newAttempts_own {existing : List PaymentAttemptRow} :
    ∀ item ∈ newAttempts p existing, item.paymentId = p.id := by
  intro item hitem
  obtain ⟨attempt, -, rfl⟩ := List.mem_map.mp hitem
  rfl

theorem newRefunds_own {existing : List RefundRow} (own : ∀ r ∈ p.refunds, r.paymentId = p.id) :
    ∀ item ∈ newRefunds p existing, item.paymentId = p.id :=
  fun item hitem => own item (List.mem_filter.mp hitem).1

theorem filter_own {α : Type} {f : α → Uuid} {id : Uuid} {items : List α}
    (own : ∀ item ∈ items, f item = id) : (items.filter fun item => f item = id) = items := by
  rw [List.filter_eq_self]
  exact fun item hitem => by simpa using own item hitem

theorem filter_foreign {α : Type} {f : α → Uuid} {id other : Uuid} {items : List α}
    (own : ∀ item ∈ items, f item = id) (ne : other ≠ id) :
    (items.filter fun item => f item = other) = [] := by
  rw [List.filter_eq_nil_iff]
  intro item hitem
  simpa [own item hitem] using ne.symm

theorem newAttempts_known {existing : List PaymentAttemptRow}
    (h : existing.Perm (p.attempts.map (newAttempt p.id))) : newAttempts p existing = [] := by
  have known (item : PaymentAttempt) (hitem : item ∈ p.attempts) :
      (item.provider, item.attemptNumber, item.createdAt) ∈
        existing.map fun row => (row.provider, row.attemptNumber, row.createdAt) :=
    List.mem_map.mpr ⟨newAttempt p.id item, h.mem_iff.mpr (List.mem_map_of_mem hitem), rfl⟩
  rw [newAttempts, List.map_eq_nil_iff, List.filter_eq_nil_iff]
  intro item hitem
  simpa using known item hitem

theorem newRefunds_known {existing : List RefundRow} (h : existing.Perm p.refunds) :
    newRefunds p existing = [] := by
  have known (item : Refund) (hitem : item ∈ p.refunds) : item.id ∈ existing.map Refund.id :=
    List.mem_map_of_mem (h.mem_iff.mpr hitem)
  rw [newRefunds, List.filter_eq_nil_iff]
  intro item hitem
  simpa using known item hitem

theorem newRefunds_applied {refund : Refund} {existing : List RefundRow}
    (h : existing.Perm p.refunds) (fresh : refund.id ∉ p.refunds.map Refund.id) :
    newRefunds (applyRefund p refund) existing = [refund] := by
  have known := newRefunds_known h
  have new : refund.id ∉ existing.map Refund.id :=
    fun hid => fresh ((h.map Refund.id).mem_iff.mp hid)
  show (p.refunds ++ [refund]).filter _ = _
  rw [List.filter_append]
  unfold newRefunds at known
  rw [known, List.nil_append, List.filter_eq_self]
  intro item hitem
  obtain rfl := List.mem_singleton.mp hitem
  simpa using new

end Write

/-- Nothing is stored of a payment. -/
structure Absent (db : Database) (id : Uuid) : Prop where
  row : db.payments id = none
  attempts : db.attemptsOf id = []
  refunds : db.refundsOf id = []

section Save

variable {db : Database} {p : Payment} {refund : Refund} (events : List EventEnvelope)

/-- The database after a save. -/
def saved (db : Database) (p : Payment) (events : List EventEnvelope) : Database :=
  db.write (unitOfWork p events (db.merchants p.merchantId) (found db p.id))

theorem saved_new (absent : Absent db p.id) (own : ∀ r ∈ p.refunds, r.paymentId = p.id) :
    Rows (saved db p events) p := by
  have none : found db p.id = none := by
    rw [found, absent.row]
    rfl
  have attempts : newAttempts p [] = p.attempts.map (newAttempt p.id) := by
    simp [newAttempts]
  have refunds : newRefunds p [] = p.refunds := by
    simp [newRefunds]
  unfold saved
  rw [none]
  constructor
  · simp [Database.write, unitOfWork, PaymentWrite.apply, newRow]
  · rw [attemptsOf_write, absent.attempts, List.nil_append]
    exact .of_eq ((filter_own newAttempts_own).trans attempts)
  · rw [refundsOf_write, absent.refunds, List.nil_append]
    exact .of_eq ((filter_own (newRefunds_own own)).trans refunds)

theorem update_row (q : Payment) (refund : Refund) :
    (Assignments.ofPayment (newRow q) (applyRefund q refund)).apply (newRow q) =
      newRow (applyRefund q refund) := by
  simp only [Assignments.apply, Assignments.ofPayment, Assignments.changed_getD]
  rfl

theorem saved_refunded (rows : Rows db p) (own : refund.paymentId = p.id)
    (fresh : refund.id ∉ p.refunds.map Refund.id) :
    Rows (saved db (applyRefund p refund) events) (applyRefund p refund) := by
  have same : found db (applyRefund p refund).id =
      some ⟨newRow p, db.attemptsOf p.id, db.refundsOf p.id⟩ := rows.found
  unfold saved
  rw [same]
  constructor
  · have stored : db.payments (applyRefund p refund).id = some (newRow p) := rows.row
    simp only [Database.write, unitOfWork, PaymentWrite.apply, Function.update_self, stored,
      Option.map_some, update_row]
  · have known : newAttempts (applyRefund p refund) (db.attemptsOf p.id) = [] :=
      newAttempts_known rows.attempts
    rw [attemptsOf_write]
    simp only [unitOfWork, Option.map_some, Option.getD_some, known, List.filter_nil,
      List.append_nil]
    exact rows.attempts
  · have new := newRefunds_applied rows.refunds fresh
    rw [refundsOf_write]
    simp only [unitOfWork, Option.map_some, Option.getD_some, new]
    have here : ([refund].filter fun item => item.paymentId = (applyRefund p refund).id) =
        [refund] := filter_own fun item hitem => by
      obtain rfl := List.mem_singleton.mp hitem
      exact own
    rw [here]
    exact rows.refunds.append_right _

end Save

/-- The foreign keys of attempts and refunds. -/
structure Linked (db : Database) : Prop where
  attempts : ∀ item ∈ db.attempts, db.payments item.paymentId ≠ none
  refunds : ∀ item ∈ db.refunds, db.payments item.paymentId ≠ none

theorem Linked.absent {db : Database} {id : Uuid} (h : Linked db) (new : db.payments id = none) :
    Absent db id where
  row := new
  attempts := by
    rw [Database.attemptsOf, List.filter_eq_nil_iff]
    intro item hitem
    have here : item.paymentId ≠ id := fun same => h.attempts item hitem (same ▸ new)
    simpa using here
  refunds := by
    rw [Database.refundsOf, List.filter_eq_nil_iff]
    intro item hitem
    have here : item.paymentId ≠ id := fun same => h.refunds item hitem (same ▸ new)
    simpa using here

/-- One writer saves a payment for the first time, then reads it, applies a refund and saves it,
again and again: the payment saved last, all events passed, and the database. -/
inductive Saves (db : Database) (first : Payment) :
    Payment → List EventEnvelope → Database → Prop
  | created {events : List EventEnvelope} {db' : Database}
      (save : alone (saveWithEvents first events) db = (some (.ok ()), db')) :
    Saves db first first events db'
  | refunded {p q : Payment} {refund : Refund} {events more : List EventEnvelope}
      {db' db'' : Database} (before : Saves db first p events db') (got : Returns db' p.id q)
      (own : refund.paymentId = q.id) (fresh : refund.id ∉ q.refunds.map Refund.id)
      (save : alone (saveWithEvents (applyRefund q refund) more) db' = (some (.ok ()), db'')) :
    Saves db first (applyRefund q refund) (events ++ more) db''

theorem Saves.rows {db db' : Database} {first p : Payment} {events : List EventEnvelope}
    (absent : Absent db first.id) (own : ∀ r ∈ first.refunds, r.paymentId = first.id)
    (h : Saves db first p events db') : Rows db' p ∧ db'.outbox = db.outbox ++ events := by
  induction h with
  | created save =>
    rw [save_alone] at save
    obtain rfl := congrArg Prod.snd save
    exact ⟨saved_new _ absent own, rfl⟩
  | @refunded p q refund events more db' db'' before got own fresh save ih =>
    obtain ⟨rows, outbox⟩ := ih
    have rows : Rows db' q := rows.stored (rows.returns got)
    rw [save_alone] at save
    obtain rfl := congrArg Prod.snd save
    refine ⟨saved_refunded more rows own fresh, ?_⟩
    rw [← List.append_assoc, ← outbox]
    rfl

section Instance

open Scenario

end Instance

end PySwitch.SqlRoundTrip
