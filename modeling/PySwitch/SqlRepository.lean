import PySwitch.Async.Handler
import PySwitch.Service

namespace PySwitch

open Async

structure PaymentRow where
  id : Uuid
  merchantId : String
  amount : ℤ
  currency : String
  status : PaymentStatus
  paymentMethodType : String
  idempotencyKey : String
  requestFingerprint : String
  provider : Option Provider
  providerReference : Option String
  refundedAmount : ℤ
  createdAt : Seconds
  updatedAt : Seconds
  deriving DecidableEq, Repr

structure PaymentAttemptRow where
  paymentId : Uuid
  provider : Provider
  attemptNumber : ℕ
  result : AttemptResult
  errorCode : Option String
  latencyMs : ℤ
  createdAt : Seconds
  deriving DecidableEq, Repr

/-- The columns of the refunds are the fields of a refund. -/
abbrev RefundRow : Type := Refund

/-- What a payment is loaded from: its row and those of the two relations. -/
structure LoadedPayment where
  row : PaymentRow
  attempts : List PaymentAttemptRow
  refunds : List RefundRow
  deriving DecidableEq, Repr

def PaymentAttemptRow.toDomain (item : PaymentAttemptRow) : PaymentAttempt :=
  ⟨item.provider, item.attemptNumber, item.result, item.latencyMs, item.createdAt, item.errorCode⟩

def LoadedPayment.toDomain (found : LoadedPayment) : Payment where
  merchantId := found.row.merchantId
  amount := found.row.amount
  currency := found.row.currency
  paymentMethodType := found.row.paymentMethodType
  idempotencyKey := found.row.idempotencyKey
  id := found.row.id
  status := found.row.status
  createdAt := found.row.createdAt
  updatedAt := found.row.updatedAt
  attempts := found.attempts.map PaymentAttemptRow.toDomain
  providerReference := found.row.providerReference
  provider := found.row.provider
  requestFingerprint := found.row.requestFingerprint
  refundedAmount := found.row.refundedAmount
  refunds := found.refunds

/-- Python's `round`: halves go to the even neighbour. -/
def roundHalfEven (x : ℚ) : ℤ :=
  let below := x.floor
  if x - below < 1 / 2 then below
  else if 1 / 2 < x - below then below + 1
  else if below % 2 = 0 then below else below + 1

/-- The columns an update sets. A value equal to the one loaded is not written. -/
structure Assignments where
  status : Option PaymentStatus
  provider : Option (Option Provider)
  providerReference : Option (Option String)
  refundedAmount : Option ℤ
  updatedAt : Option Seconds
  deriving DecidableEq, Repr

inductive PaymentWrite where
  | insert (row : PaymentRow)
  | update (paymentId : Uuid) (set : Assignments)
  deriving DecidableEq, Repr

/-- What a transaction writes when it commits. -/
structure UnitOfWork where
  merchant : Option (String × Seconds) := none
  payment : Option PaymentWrite := none
  attempts : List PaymentAttemptRow := []
  refunds : List RefundRow := []
  events : List EventEnvelope
  deriving DecidableEq, Repr

inductive SqlEffect where
  | selectMerchant (merchantId : String)
  | selectPayment (paymentId : Uuid)
  | selectPaymentByKey (key : RecordKey)
  | selectAttempts (paymentId : Uuid)
  | selectRefunds (paymentId : Uuid)
  | commit (work : UnitOfWork)
  deriving DecidableEq

@[reducible] def SqlEffect.Reply : SqlEffect → Type
  | .selectMerchant _ => Option Seconds
  | .selectPayment _ => Option PaymentRow
  | .selectPaymentByKey _ => Option PaymentRow
  | .selectAttempts _ => List PaymentAttemptRow
  | .selectRefunds _ => List RefundRow
  | .commit _ => Unit

/-- The effects of a service whose store is a database. -/
inductive WorkerEffect where
  | service (e : Effect)
  | sql (e : SqlEffect)

@[reducible] def WorkerEffect.Reply : WorkerEffect → Type
  | .service e => e.Reply
  | .sql e => e.Reply

/-- The tables, as the committed transactions have left them. -/
structure Database where
  merchants : String → Option Seconds
  payments : Uuid → Option PaymentRow
  keys : RecordKey → Option Uuid
  attempts : List PaymentAttemptRow
  refunds : List RefundRow
  outbox : List EventEnvelope

namespace Assignments

/-- What is set when `value` is assigned to a column loaded as `loaded`. -/
def changed {α : Type} [DecidableEq α] (loaded value : α) : Option α :=
  if value = loaded then none else some value

def ofPayment (row : PaymentRow) (payment : Payment) : Assignments where
  status := changed row.status payment.status
  provider := changed row.provider payment.provider
  providerReference := changed row.providerReference payment.providerReference
  refundedAmount := changed row.refundedAmount payment.refundedAmount
  updatedAt := changed row.updatedAt payment.updatedAt

def apply (set : Assignments) (row : PaymentRow) : PaymentRow :=
  { row with
    status := set.status.getD row.status
    provider := set.provider.getD row.provider
    providerReference := set.providerReference.getD row.providerReference
    refundedAmount := set.refundedAmount.getD row.refundedAmount
    updatedAt := set.updatedAt.getD row.updatedAt }

theorem changed_getD {α : Type} [DecidableEq α] (loaded value : α) :
    (changed loaded value).getD loaded = value := by
  unfold changed
  split
  · rename_i same
    exact same.symm
  · rfl

end Assignments

namespace PaymentWrite

def paymentId : PaymentWrite → Uuid
  | .insert row => row.id
  | .update id _ => id

def apply : PaymentWrite → (Uuid → Option PaymentRow) → Uuid → Option PaymentRow
  | .insert row, payments => Function.update payments row.id (some row)
  | .update id set, payments => Function.update payments id ((payments id).map set.apply)

def applyKeys : PaymentWrite → (RecordKey → Option Uuid) → RecordKey → Option Uuid
  | .insert row, keys => Function.update keys (row.merchantId, row.idempotencyKey) (some row.id)
  | .update _ _, keys => keys

end PaymentWrite

/-- The payment a transaction writes. -/
def UnitOfWork.paymentId (work : UnitOfWork) : Option Uuid :=
  work.payment.map PaymentWrite.paymentId

namespace Database

def empty : Database := ⟨fun _ => none, fun _ => none, fun _ => none, [], [], []⟩

def attemptsOf (db : Database) (paymentId : Uuid) : List PaymentAttemptRow :=
  db.attempts.filter fun item => item.paymentId = paymentId

def refundsOf (db : Database) (paymentId : Uuid) : List RefundRow :=
  db.refunds.filter fun item => item.paymentId = paymentId

def answer (db : Database) : (e : SqlEffect) → e.Reply
  | .selectMerchant merchantId => db.merchants merchantId
  | .selectPayment paymentId => db.payments paymentId
  | .selectPaymentByKey key => (db.keys key).bind db.payments
  | .selectAttempts paymentId => db.attemptsOf paymentId
  | .selectRefunds paymentId => db.refundsOf paymentId
  | .commit _ => ()

def write (db : Database) (work : UnitOfWork) : Database where
  merchants := match work.merchant with
    | some (merchantId, createdAt) => Function.update db.merchants merchantId (some createdAt)
    | none => db.merchants
  payments := match work.payment with
    | some payment => payment.apply db.payments
    | none => db.payments
  keys := match work.payment with
    | some payment => payment.applyKeys db.keys
    | none => db.keys
  attempts := db.attempts ++ work.attempts
  refunds := db.refunds ++ work.refunds
  outbox := db.outbox ++ work.events

def after (db : Database) : SqlEffect → Database
  | .commit work => db.write work
  | _ => db

end Database

/-- A transaction of the repository. Its statements each see what was committed before them. -/
abbrev Transaction (α : Type) : Type := Program WorkerEffect WorkerEffect.Reply Unit Exn α

namespace SqlAlchemyPaymentRepository

open Program

def execute (e : SqlEffect) : Transaction e.Reply := effect (WorkerEffect.sql e)

/-- The row with its relations, each of which takes a statement of its own. -/
def load : Option PaymentRow → Transaction (Option LoadedPayment)
  | none => return none
  | some row => do
    let attempts ← execute (.selectAttempts row.id)
    let refunds ← execute (.selectRefunds row.id)
    return some ⟨row, attempts, refunds⟩

def find (paymentId : Uuid) : Transaction (Option LoadedPayment) := do
  let row ← execute (.selectPayment paymentId)
  load row

def getByIdempotency (key : RecordKey) : Transaction (Option Payment) := do
  let row ← execute (.selectPaymentByKey key)
  let found ← load row
  return found.map LoadedPayment.toDomain

def get (paymentId : Uuid) : Transaction (Option Payment) := do
  let found ← find paymentId
  return found.map LoadedPayment.toDomain

def newRow (payment : Payment) : PaymentRow where
  id := payment.id
  merchantId := payment.merchantId
  amount := payment.amount
  currency := payment.currency
  status := payment.status
  paymentMethodType := payment.paymentMethodType
  idempotencyKey := payment.idempotencyKey
  requestFingerprint := payment.requestFingerprint
  provider := payment.provider
  providerReference := payment.providerReference
  refundedAmount := payment.refundedAmount
  createdAt := payment.createdAt
  updatedAt := payment.updatedAt

def newAttempt (paymentId : Uuid) (item : PaymentAttempt) : PaymentAttemptRow :=
  ⟨paymentId, item.provider, item.attemptNumber, item.result, item.errorCode,
    roundHalfEven item.latencyMs, item.createdAt⟩

/-- The attempts that no row is marked as, by provider, number and time. -/
def newAttempts (payment : Payment) (existing : List PaymentAttemptRow) : List PaymentAttemptRow :=
  (payment.attempts.filter fun item =>
    (item.provider, item.attemptNumber, item.createdAt) ∉
      existing.map fun row => (row.provider, row.attemptNumber, row.createdAt)).map
    (newAttempt payment.id)

def newRefunds (payment : Payment) (existing : List RefundRow) : List RefundRow :=
  payment.refunds.filter fun item => item.id ∉ existing.map Refund.id

def unitOfWork (payment : Payment) (events : List EventEnvelope) (merchant : Option Seconds)
    (found : Option LoadedPayment) : UnitOfWork where
  merchant := if merchant.isNone then some (payment.merchantId, payment.createdAt) else none
  payment := some <| match found with
    | none => .insert (newRow payment)
    | some found => .update payment.id (.ofPayment found.row payment)
  attempts := newAttempts payment ((found.map LoadedPayment.attempts).getD [])
  refunds := newRefunds payment ((found.map LoadedPayment.refunds).getD [])
  events := events

def saveWithEvents (payment : Payment) (events : List EventEnvelope) : Transaction Unit := do
  let merchant ← execute (.selectMerchant payment.merchantId)
  let found ← find payment.id
  execute (.commit (unitOfWork payment events merchant found))

def save (payment : Payment) : Transaction Unit := saveWithEvents payment []

def append (events : List EventEnvelope) : Transaction Unit :=
  execute (.commit { events := events })

/-- How a service carries out its effects when the repository is its store. The payments the
repository returns are copies. -/
def carryOut : (e : Effect) → Coroutine WorkerEffect WorkerEffect.Reply e.Reply
  | .store (.get paymentId) => (get paymentId).start ()
  | .store (.getByIdempotency key) => (getByIdempotency key).start ()
  | .store (.save payment) => (save payment).start ()
  | .store (.saveWithEvents payment events) => (saveWithEvents payment events).start ()
  | .store (.append events) => (append events).start ()
  | .store (.reread payment) => .done payment
  | .host e => .perform (.service (.host e)) .done
  | .circuit e => .perform (.service (.circuit e)) .done
  | .stats e => .perform (.service (.stats e)) .done
  | .semaphore e => .perform (.service (.semaphore e)) .done
  | .refundLock e => .perform (.service (.refundLock e)) .done
  | .provider e => .perform (.service (.provider e)) .done
  | .coordinator e => .perform (.service (.coordinator e)) .done
  | .redis e => .perform (.service (.redis e)) .done

theorem carryOut_service {e : Effect} (h : ∀ a, e ≠ .store a) :
    carryOut e = .perform (.service e) .done := by
  cases e with
  | store a => exact absurd rfl (h a)
  | _ => rfl

end SqlAlchemyPaymentRepository

end PySwitch
