import Mathlib.Algebra.Order.Ring.Unbundled.Rat

namespace PySwitch

/-- Clock readings and durations in seconds. Arithmetic on them is exact. -/
abbrev Seconds : Type := ℚ

/-- `uuid4` never repeats, so identifiers are counted up. -/
abbrev Uuid : Type := ℕ

/-- A provider is known by its name. -/
abbrev Provider : Type := String

structure ProviderError where
  code : String
  message : String := "Provider request failed"
  deriving DecidableEq, Repr

structure ProviderPaymentResult where
  reference : String
  status : String := "SUCCEEDED"
  deriving DecidableEq, Repr

/-- Everything a call can raise. `cancelled` is the one that is no `Exception`. -/
inductive Exn where
  | provider (error : ProviderError)
  | lookup (message : String)
  | idempotencyConflict (message : String)
  | idempotencyUnavailable (message : String)
  | refund (message code : String)
  | other (message : String)
  | cancelled
  deriving DecidableEq, Repr

inductive PaymentStatus where
  | pending
  | processing
  | succeeded
  | failed
  | refunded
  deriving DecidableEq, Repr

inductive AttemptResult where
  | retry
  | failed
  | succeeded
  deriving DecidableEq, Repr

structure PaymentAttempt where
  provider : Provider
  attemptNumber : ℕ
  result : AttemptResult
  latencyMs : ℚ
  createdAt : Seconds
  errorCode : Option String := none
  deriving DecidableEq, Repr

structure Refund where
  paymentId : Uuid
  amount : ℤ
  providerReference : Option String
  id : Uuid
  createdAt : Seconds
  deriving DecidableEq, Repr

structure Payment where
  merchantId : String
  amount : ℤ
  currency : String
  paymentMethodType : String
  idempotencyKey : String
  id : Uuid
  status : PaymentStatus := .processing
  createdAt : Seconds
  updatedAt : Seconds
  attempts : List PaymentAttempt := []
  providerReference : Option String := none
  provider : Option Provider := none
  requestFingerprint : String := ""
  refundedAmount : ℤ := 0
  refunds : List Refund := []
  deriving DecidableEq, Repr

/-- What a merchant and an idempotency key name together. -/
abbrev RecordKey : Type := String × String

def Payment.key (payment : Payment) : RecordKey := (payment.merchantId, payment.idempotencyKey)

structure PaymentInput where
  merchantId : String
  amount : ℤ
  currency : String
  paymentMethodType : String
  token : String
  idempotencyKey : String
  deriving DecidableEq, Repr

def PaymentInput.key (data : PaymentInput) : RecordKey := (data.merchantId, data.idempotencyKey)

inductive IdempotencyStatus where
  | claimed
  | completed
  | conflict
  deriving DecidableEq, Repr

structure IdempotencyDecision where
  status : IdempotencyStatus
  paymentId : Option Uuid := none
  deriving DecidableEq, Repr

inductive CircuitState where
  | closed
  | opened
  | halfOpen
  deriving DecidableEq, Repr

inductive EventType where
  | paymentCreated
  | paymentProcessing
  | paymentSucceeded
  | paymentFailed
  | paymentRefunded
  | providerCircuitOpened
  | providerCircuitClosed
  deriving DecidableEq, Repr

inductive EventPayload where
  | payment (paymentId : Uuid) (status : PaymentStatus)
  | circuit (provider : Provider) (fromState toState : CircuitState)
  deriving DecidableEq, Repr

structure EventEnvelope where
  eventType : EventType
  merchantId : String
  aggregateId : Option Uuid
  payload : EventPayload
  provider : Option Provider := none
  version : ℕ := 1
  id : Uuid
  occurredAt : Seconds
  deriving DecidableEq, Repr

end PySwitch
