import PySwitch.SqlProtocol

namespace PySwitch.SqlRefunds

open Async Program Service
open SqlAlchemyPaymentRepository

/-- The refunds of a payment were made for it, with identifiers drawn before `n`. -/
def Drawn (n : Uuid) (p : Payment) : Prop := ∀ r ∈ p.refunds, r.paymentId = p.id ∧ r.id < n

/-- The database is as the payment says. -/
def Holds (db : Database) (p : Payment) : Prop :=
  ∃ row, db.payments p.id = some row ∧ row.amount = p.amount ∧
    row.refundedAmount = p.refundedAmount ∧ db.refundsOf p.id = p.refunds

namespace Stage

/-- What holds of a stage whatever happens to the database. -/
def Sound (n : Uuid) : Stage → Prop
  | .loaded p => Drawn n p
  | .awaiting p amount => Drawn n p ∧ amount ≤ p.amount - p.refundedAmount
  | .returned p amount => Drawn n p ∧ amount ≤ p.amount - p.refundedAmount
  | .named p amount refundId =>
    Drawn refundId p ∧ refundId < n ∧ amount ≤ p.amount - p.refundedAmount
  | .missing p amount refundId =>
    Drawn refundId p ∧ refundId < n ∧ amount ≤ p.amount - p.refundedAmount
  | .finding p amount refundId _ =>
    Drawn refundId p ∧ refundId < n ∧ amount ≤ p.amount - p.refundedAmount
  | .found p amount refundId _ _ =>
    Drawn refundId p ∧ refundId < n ∧ amount ≤ p.amount - p.refundedAmount
  | _ => True

/-- The database is still as the refund has read it. -/
def Current (db : Database) : Stage → Prop
  | .selected row => db.payments row.id = some row
  | .joined row _ => db.payments row.id = some row
  | .loaded p => Holds db p
  | .awaiting p _ => Holds db p
  | .returned p _ => Holds db p
  | .named p _ _ => Holds db p
  | .missing p _ _ => Holds db p ∧ db.payments p.id = none
  | .finding p _ _ row => Holds db p ∧ db.payments p.id = some row
  | .found p _ _ row refunds =>
    Holds db p ∧ db.payments p.id = some row ∧ db.refundsOf p.id = refunds
  | _ => True

end Stage

theorem Drawn.mono {n m : Uuid} {p : Payment} (h : Drawn n p) (le : n ≤ m) : Drawn m p :=
  fun r hr => ⟨(h r hr).1, Nat.lt_of_lt_of_le (h r hr).2 le⟩

theorem Stage.Sound.mono {n m : Uuid} {g : Stage} (h : g.Sound n) (le : n ≤ m) : g.Sound m := by
  cases g with
  | loaded p => exact Drawn.mono h le
  | awaiting p amount => exact ⟨h.1.mono le, h.2⟩
  | returned p amount => exact ⟨h.1.mono le, h.2⟩
  | named p amount refundId => exact ⟨h.1, Nat.lt_of_lt_of_le h.2.1 le, h.2.2⟩
  | missing p amount refundId => exact ⟨h.1, Nat.lt_of_lt_of_le h.2.1 le, h.2.2⟩
  | finding p amount refundId row => exact ⟨h.1, Nat.lt_of_lt_of_le h.2.1 le, h.2.2⟩
  | found p amount refundId row refunds => exact ⟨h.1, Nat.lt_of_lt_of_le h.2.1 le, h.2.2⟩
  | _ => trivial

/-- Two databases have the same rows of a payment. -/
structure Agree (id : Uuid) (db db' : Database) : Prop where
  payment : db'.payments id = db.payments id
  refunds : db'.refundsOf id = db.refundsOf id

theorem Agree.balanced {id : Uuid} {db db' : Database} (h : Agree id db db')
    (hb : Balanced id db) : Balanced id db' := by
  intro row stored
  rw [h.payment] at stored
  rw [h.refunds]
  exact hb row stored

theorem Agree.holds {db db' : Database} {p : Payment} (h : Agree p.id db db') (hp : Holds db p) :
    Holds db' p := by
  obtain ⟨row, stored, amount, refunded, refunds⟩ := hp
  exact ⟨row, h.payment.trans stored, amount, refunded, h.refunds.trans refunds⟩

theorem Agree.current {id : Uuid} {db db' : Database} (h : Agree id db db') {g : Stage}
    (reads : g.reading = some id) (hg : g.Current db) : g.Current db' := by
  cases g with
  | selected row =>
    cases reads
    exact h.payment.trans hg
  | joined row attempts =>
    cases reads
    exact h.payment.trans hg
  | missing p amount refundId =>
    cases reads
    exact ⟨h.holds hg.1, h.payment.trans hg.2⟩
  | finding p amount refundId row =>
    cases reads
    exact ⟨h.holds hg.1, h.payment.trans hg.2⟩
  | found p amount refundId row refunds =>
    cases reads
    exact ⟨h.holds hg.1, h.payment.trans hg.2.1, h.refunds.trans hg.2.2⟩
  | queued => cases reads
  | locked paymentId => cases reads
  | saved paymentId => cases reads
  | released => cases reads
  | _ =>
    cases reads
    exact h.holds hg

section Write

variable {db : Database} {p q : Payment} {amount : ℤ} {refundId : Uuid} {events : List EventEnvelope}
  {merchant : Option Seconds} {found : Option LoadedPayment}

theorem unitOfWork_paymentId : (unitOfWork q events merchant found).paymentId = some q.id := by
  cases found <;> rfl

theorem mem_newRefunds {existing : List RefundRow} {r : RefundRow}
    (h : r ∈ newRefunds q existing) : r ∈ q.refunds := (List.mem_filter.mp h).1

theorem write_other (own : ∀ r ∈ q.refunds, r.paymentId = q.id) {id : Uuid} (h : id ≠ q.id) :
    Agree id db (db.write (unitOfWork q events merchant found)) := by
  constructor
  · cases found <;> exact Function.update_of_ne h _ _
  · have foreign : (newRefunds q ((found.map LoadedPayment.refunds).getD [])).filter
        (fun item => item.paymentId = id) = [] := by
      apply List.filter_eq_nil_iff.mpr
      intro r hr
      have := own r (mem_newRefunds hr)
      simp only [decide_eq_true_eq]
      exact fun same => h (same.symm.trans this)
    show (db.refunds ++ newRefunds q _).filter (fun item => item.paymentId = id) = _
    rw [List.filter_append, foreign, List.append_nil]
    rfl

theorem write_identified (identified : ∀ {id row}, db.payments id = some row → row.id = id)
    {id : Uuid} {row : PaymentRow}
    (stored : (db.write (unitOfWork q events merchant found)).payments id = some row) :
    row.id = id := by
  cases found with
  | none =>
    obtain ⟨rfl, rfl⟩ | ⟨-, stored⟩ := update_cases stored
    · rfl
    · exact identified stored
  | some found =>
    have stored : Function.update db.payments q.id _ id = some row := stored
    by_cases same : id = q.id
    · subst same
      rw [Function.update_self] at stored
      obtain ⟨old, before, rfl⟩ := Option.map_eq_some_iff.mp stored
      have same : old.id = q.id := identified before
      exact same
    · rw [Function.update_of_ne same] at stored
      exact identified stored

theorem applied_refunds {n : Uuid} (applied : Applied p amount refundId q) (drawn : Drawn refundId p)
    (fresh : refundId < n) : Drawn n q := by
  obtain ⟨refund, own, -, rfl, rfl⟩ := applied
  intro r hr
  obtain hr | hr := List.mem_append.mp hr
  · exact ⟨(drawn r hr).1, Nat.lt_trans (drawn r hr).2 fresh⟩
  · obtain rfl := List.mem_singleton.mp hr
    exact ⟨own, fresh⟩

theorem newRefunds_applied {refund : Refund} (drawn : Drawn refund.id p) :
    newRefunds (applyRefund p refund) p.refunds = [refund] := by
  have old : p.refunds.filter (fun item => item.id ∉ p.refunds.map Refund.id) = [] := by
    apply List.filter_eq_nil_iff.mpr
    intro r hr
    simp only [decide_eq_true_eq, not_not]
    exact List.mem_map_of_mem hr
  have new : refund.id ∉ p.refunds.map Refund.id := by
    intro mem
    obtain ⟨r, hr, same⟩ := List.mem_map.mp mem
    exact absurd (drawn r hr).2 (by rw [same]; exact Nat.lt_irrefl _)
  show (p.refunds ++ [refund]).filter (fun item => item.id ∉ p.refunds.map Refund.id) = _
  rw [List.filter_append, old, List.filter_cons_of_pos (by simpa using new)]
  rfl

/-- A refund written over what it has read balances the payment again. -/
theorem write_balanced {work : UnitOfWork} {row : PaymentRow} {refunds : List RefundRow}
    (balanced : Balanced p.id db) (holds : Holds db p) (stored : db.payments p.id = some row)
    (existing : db.refundsOf p.id = refunds) (drawn : Drawn refundId p)
    (covered : amount ≤ p.amount - p.refundedAmount) (applied : Applied p amount refundId q)
    (written : Written q row refunds work) : Balanced p.id (db.write work) := by
  obtain ⟨refund, own, rfl, rfl, rfl⟩ := applied
  obtain ⟨events, merchant, attempts, rfl⟩ := written
  obtain ⟨row', stored', amount, refunded, refunds'⟩ := holds
  obtain rfl : row = row' := Option.some.inj (stored.symm.trans stored')
  obtain rfl : refunds = p.refunds := existing.symm.trans refunds'
  obtain ⟨total, bound⟩ := balanced row stored
  intro new found
  have found : Function.update db.payments p.id ((db.payments p.id).map _) p.id = some new := found
  rw [Function.update_self, stored] at found
  have after : (db.write (unitOfWork (applyRefund p refund) events merchant
      (some ⟨row, attempts, p.refunds⟩))).refundsOf p.id = p.refunds ++ [refund] := by
    show (db.refunds ++ newRefunds (applyRefund p refund) p.refunds).filter
      (fun item => item.paymentId = p.id) = _
    rw [newRefunds_applied drawn, List.filter_append]
    congr 1
    rw [List.filter_cons_of_pos (by simpa using own)]
    rfl
  rw [after]
  obtain rfl := Option.some.inj found
  have assigned : ((Assignments.ofPayment row (applyRefund p refund)).apply row).refundedAmount =
      p.refundedAmount + refund.amount := Assignments.changed_getD _ _
  have sum : ((p.refunds ++ [refund]).map Refund.amount).sum =
      (p.refunds.map Refund.amount).sum + refund.amount := by simp
  rw [refunds'] at total
  rw [assigned, sum]
  refine ⟨by omega, ?_⟩
  show p.refundedAmount + refund.amount ≤ row.amount
  omega

end Write

end PySwitch.SqlRefunds
