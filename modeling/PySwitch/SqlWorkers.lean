import PySwitch.Cluster
import PySwitch.SqlRepository

namespace PySwitch.SqlRefunds

open Async Program Service
open SqlAlchemyPaymentRepository (carryOut unitOfWork)

structure RefundCall where
  paymentId : Uuid
  amount : Option ℤ

/-- A task has selected the row of a payment, or has committed a transaction that writes it. -/
inductive Access where
  | selected (t : Tid) (paymentId : Uuid)
  | committed (t : Tid) (paymentId : Uuid)
  deriving DecidableEq

/-- Workers over one database. The latest access comes first. -/
structure SqlWorld where
  cluster : Cluster
  database : Database
  accesses : List Access

namespace SqlWorld

def setWorld (w : SqlWorld) (worker : ℕ) (v : World) : SqlWorld :=
  { w with cluster := w.cluster.setWorld worker v }

def note (t : Tid) (accesses : List Access) : SqlEffect → List Access
  | .selectPayment paymentId => .selected t paymentId :: accesses
  | .commit work =>
    match work.paymentId with
    | some paymentId => .committed t paymentId :: accesses
    | none => accesses
  | _ => accesses

def execute (w : SqlWorld) (t : Tid) (e : SqlEffect) : SqlWorld :=
  { w with database := w.database.after e, accesses := note t w.accesses e }

end SqlWorld

section Workers

variable (profile : Profile) (worker : Tid → ℕ) (t : Tid)

/-- Every statement suspends its task, and takes effect when the task is resumed. -/
def enter : (e : WorkerEffect) → Input → SqlWorld → Answer e.Reply SqlWorld
  | .service e, i, w =>
    (Effect.enter profile t e i (w.cluster.world (worker t))).lift (w.setWorld (worker t))
  | .sql _, .suspend, w => .wait w
  | .sql _, _, _ => .refuse

def resume : (e : WorkerEffect) → Input → SqlWorld → Answer e.Reply SqlWorld
  | .service e, i, w =>
    (Effect.resume profile t e i (w.cluster.world (worker t))).lift (w.setWorld (worker t))
  | .sql e, .go, w => .reply (w.database.answer e) (w.execute t e)
  | .sql _, _, _ => .refuse

/-- Refunds on workers, each with locks of its own. A worker touches what is shared only where
it waits, so that one event loop stands for all of theirs. -/
def workers (cfg : Config) : System Tid RefundCall WorkerEffect WorkerEffect.Reply
    (Except Exn Refund) Input (ℕ × Outside) SqlWorld where
  program c := ((refund cfg c.paymentId c.amount).start {}).handle carryOut
  enter := enter profile worker
  resume := resume profile worker
  outside a w := (a.2.apply (w.cluster.world a.1)).map (w.setWorld a.1)

end Workers

abbrev WorkersState : Type :=
  State Tid RefundCall WorkerEffect WorkerEffect.Reply (Except Exn Refund) SqlWorld

abbrev WorkersLabel : Type := Label Tid RefundCall Input (ℕ × Outside)

/-- The refunded amount of a payment is the sum of its refunds and covered by its amount. -/
def Balanced (id : Uuid) (db : Database) : Prop :=
  ∀ row, db.payments id = some row →
    row.refundedAmount = ((db.refundsOf id).map Refund.amount).sum ∧ row.refundedAmount ≤ row.amount

/-- Another worker has committed the payment after the task had selected it. -/
def Overtaken (worker : Tid → ℕ) (t : Tid) (id : Uuid) : List Access → Prop
  | [] => False
  | .committed u paymentId :: earlier =>
    paymentId = id ∧ worker u ≠ worker t ∧ .selected t id ∈ earlier ∨ Overtaken worker t id earlier
  | .selected _ _ :: earlier => Overtaken worker t id earlier

instance decidableOvertaken (worker : Tid → ℕ) (t : Tid) (id : Uuid) :
    DecidablePred (Overtaken worker t id)
  | [] => .isFalse nofun
  | .committed _ _ :: earlier =>
    have := decidableOvertaken worker t id earlier
    inferInstanceAs (Decidable (_ ∨ _))
  | .selected _ _ :: earlier => decidableOvertaken worker t id earlier

/-- The transaction that a task is about to commit. -/
def committing (s : WorkersState) (t : Tid) : Option UnitOfWork :=
  match (s.tasks t).bind fun T => T.code.head with
  | some (.sql (.commit work)) => some work
  | _ => none

/-- No task commits the payment when another worker has overtaken it. -/
def Undisturbed (worker : Tid → ℕ) (id : Uuid) (s : WorkersState) : WorkersLabel → Prop
  | .resume t _ => ∀ work, committing s t = some work → work.paymentId = some id →
    ¬ Overtaken worker t id s.world.accesses
  | _ => True

instance (worker : Tid → ℕ) (id : Uuid) (s : WorkersState) : DecidablePred (Undisturbed worker id s)
  | .call _ _ => .isTrue trivial
  | .enter _ _ => .isTrue trivial
  | .resume t _ =>
    match h : committing s t with
    | none => .isTrue fun _ hw => nomatch h.symm.trans hw
    | some work => decidable_of_iff
        (work.paymentId = some id → ¬ Overtaken worker t id s.world.accesses)
        ⟨fun free _ hw => Option.some.inj (h.symm.trans hw) ▸ free, fun free => free work h⟩
  | .outside _ => .isTrue trivial

end PySwitch.SqlRefunds
