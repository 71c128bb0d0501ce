import PySwitch.Async.Footprint
import PySwitch.Effect
import PySwitch.Fingerprint

namespace PySwitch

open Async Program

/-- The variables of a call. `attempts` is the list that one visit to a provider builds up,
`payment` is unbound until it is assigned. -/
structure Locals where
  attempts : List PaymentAttempt := []
  payment : Option Payment := none
  lastError : Option ProviderError := none
  claimed : Bool := false

abbrev Service (α : Type) : Type := Program Effect Effect.Reply Locals Exn α

abbrev perform (e : Effect) : Service e.Reply := effect e

def Effect.coordinating : Effect → Prop
  | .coordinator _ => True
  | .redis _ => True
  | _ => False

/-- Whatever a coordinator does, it does not touch providers, circuits or payments. -/
structure Coordinator where
  acquire : RecordKey → String → Service IdempotencyDecision
  complete : RecordKey → String → Uuid → Service Unit
  abort : RecordKey → String → Service Unit
  acquire_uses : ∀ key fingerprint, Uses Effect.coordinating (acquire key fingerprint)
  complete_uses : ∀ key fingerprint paymentId,
    Uses Effect.coordinating (complete key fingerprint paymentId)
  abort_uses : ∀ key fingerprint, Uses Effect.coordinating (abort key fingerprint)

inductive Outbox where
  | absent
  | store
  | separate
  deriving DecidableEq

structure Config where
  providers : List Provider
  retryPolicy : RetryPolicy
  coordinator : Coordinator
  outbox : Outbox
  sha256 : List Char → String

namespace Service

def now : Service Seconds := perform (.host .now)

def uuid4 : Service Uuid := perform (.host .uuid4)

def get (paymentId : Uuid) : Service (Option Payment) := await (perform (.store (.get paymentId)))

def newEvent (eventType : EventType) (merchantId : String) (aggregateId : Option Uuid)
    (payload : EventPayload) (provider : Option Provider) : Service EventEnvelope := do
  let id ← uuid4
  let occurredAt ← now
  return { eventType, merchantId, aggregateId, payload, provider, id, occurredAt }

def recordCircuitTransition (cfg : Config) (provider : Provider) (previous current : CircuitState) :
    Service Unit := do
  onlyIf (cfg.outbox ≠ .absent ∧ current ≠ .halfOpen) do
    let event ← newEvent
      (if current = .opened then .providerCircuitOpened else .providerCircuitClosed)
      "system" none (.circuit provider previous current) (some provider)
    await (perform (.store (.append [event])))

def allowProvider (cfg : Config) (provider : Provider) : Service Bool := do
  let (allowed, previous, current) ← perform (.circuit (.allowRequest provider))
  onlyIf (previous ≠ current) (recordCircuitTransition cfg provider previous current)
  return allowed

def recordSuccess (cfg : Config) (provider : Provider) : Service Unit := do
  let (previous, current) ← perform (.circuit (.recordSuccess provider))
  onlyIf (previous ≠ current) (recordCircuitTransition cfg provider previous current)

def recordFailure (cfg : Config) (provider : Provider) : Service Unit := do
  let (previous, current) ← perform (.circuit (.recordFailure provider))
  onlyIf (previous ≠ current) (recordCircuitTransition cfg provider previous current)

def paymentEvent (payment : Payment) (eventType : EventType) (status : PaymentStatus) :
    Service EventEnvelope :=
  newEvent eventType payment.merchantId (some payment.id) (.payment payment.id status)
    payment.provider

def save (cfg : Config) (payment : Payment) (events : List EventEnvelope) : Service Unit := do
  if events ≠ [] ∧ cfg.outbox = .store then
    await (perform (.store (.saveWithEvents payment events)))
  else
    await (perform (.store (.save payment)))
    onlyIf (events ≠ [] ∧ cfg.outbox ≠ .absent) (await (perform (.store (.append events))))

def createPayment (provider : Provider) (payment : Payment) (data : PaymentInput) :
    Service ProviderPaymentResult := do
  perform (.provider (.startPayment provider payment.id data.amount data.currency data.token))
  await (perform (.provider (.finishPayment provider payment.id)))

/-- The provider call, inside the semaphore the provider had when the call came to it. -/
def callProvider (provider : Provider) (payment : Payment) (data : PaymentInput) :
    Service ProviderPaymentResult := do
  let semaphore ← perform (.semaphore (.current provider))
  match semaphore with
  | none => createPayment provider payment data
  | some semaphore => do
    await (perform (.semaphore (.acquire provider semaphore)))
    ensure (createPayment provider payment data)
      (perform (.semaphore (.release provider semaphore)))

def appendAttempt (provider : Provider) (attemptNumber : ℕ) (result : AttemptResult)
    (latencyMs : ℚ) (errorCode : Option String) : Service Unit := do
  let createdAt ← now
  modify fun s => { s with
    attempts := s.attempts ++ [⟨provider, attemptNumber, result, latencyMs, createdAt, errorCode⟩] }

def latencySince (started : Seconds) : Service ℚ := do
  let ended ← now
  return (ended - started) * 1000

/-- The handlers around the provider call. A cancelled call has none. -/
def afterError (cfg : Config) (provider : Provider) (attemptNumber : ℕ) (started : Seconds) :
    Exn → Service Unit
  | .provider error => do
    let latencyMs ← latencySince started
    perform (.stats (.finishRequest provider false latencyMs (some error.code)))
    recordFailure cfg provider
    onlyIf (isRetryable error = true) (perform (.stats (.countRetry provider)))
    appendAttempt provider attemptNumber (if isRetryable error then .retry else .failed)
      latencyMs (some error.code)
  | .cancelled => pure ()
  | _ => do
    let latencyMs ← latencySince started
    perform (.stats (.finishRequest provider false latencyMs (some "INTERNAL_ERROR")))

def operation (cfg : Config) (provider : Provider) (payment : Payment) (data : PaymentInput) :
    Service ProviderPaymentResult := do
  let s ← Program.get
  let attemptNumber := s.attempts.length + 1
  let allowed ← allowProvider cfg provider
  if allowed = false then
    raise (.provider ⟨"CIRCUIT_OPEN", "Provider circuit is open"⟩)
  else
    let started ← now
    perform (.stats (.startRequest provider))
    let answer ← attempt (callProvider provider payment data)
    match answer with
    | .error x => do
      afterError cfg provider attemptNumber started x
      raise x
    | .ok result => do
      recordSuccess cfg provider
      let latencyMs ← latencySince started
      perform (.stats (.finishRequest provider true latencyMs none))
      appendAttempt provider attemptNumber .succeeded latencyMs none
      return result

def sleep (delay : Seconds) : Service Unit := await (perform (.host (.sleep delay)))

/-- A random value is asked for only when there is a jitter. -/
def delayFor (policy : RetryPolicy) (retryNumber : ℕ) : Service Seconds :=
  match policy.base retryNumber with
  | .error message => raise (.other message)
  | .ok base =>
    if policy.jitterRatio = 0 then return base
    else do
      let randomValue ← perform (.host .random)
      return policy.jittered base randomValue

/-- The retry loop from its `attempt`th round on, with `remaining` rounds left. -/
def retryFrom {α : Type} (operation : Service α) (policy : RetryPolicy)
    (lastError : Option ProviderError) (attempt : ℕ) : ℕ → Service (α × ℕ)
  | 0 => raise (match lastError with
    | some error => .provider error
    | none => .other "retry policy made no attempt")
  | remaining + 1 => do
    let answer ← Program.attempt operation
    match answer with
    | .ok result => return (result, attempt + 1)
    | .error (.provider error) => do
      if isRetryable error = false ∨ attempt + 1 = policy.maxAttempts then raise (.provider error)
      else
        let delay ← delayFor policy attempt
        sleep delay
        retryFrom operation policy (some error) (attempt + 1) remaining
    | .error x => raise x

def runWithRetry {α : Type} (operation : Service α) (policy : RetryPolicy) : Service (α × ℕ) :=
  retryFrom operation policy none 0 policy.maxAttempts

def failLast : List PaymentAttempt → List PaymentAttempt
  | [] => []
  | [attempt] => [{ attempt with result := .failed }]
  | attempt :: attempts => attempt :: failLast attempts

/-- Append the attempts of a visit to the history of the payment. -/
def extendAttempts (s : Locals) : Locals :=
  { s with payment := s.payment.map fun p => { p with attempts := p.attempts ++ s.attempts } }

def attemptProvider (cfg : Config) (payment : Payment) (provider : Provider) (data : PaymentInput) :
    Service ProviderPaymentResult := do
  modify fun s => { s with attempts := [] }
  let answer ← attempt (runWithRetry (operation cfg provider payment data) cfg.retryPolicy)
  match answer with
  | .ok (result, _) => do
    modify extendAttempts
    return result
  | .error (.provider error) => do
    modify fun s => { s with attempts := failLast s.attempts }
    modify extendAttempts
    raise (.provider error)
  | .error x => raise x

def paymentEvents (payment : Payment) (last : EventType) : Service (List EventEnvelope) := do
  let created ← paymentEvent payment .paymentCreated .processing
  let processing ← paymentEvent payment .paymentProcessing .processing
  let final ← paymentEvent payment last payment.status
  return [created, processing, final]

/-- Save a payment in its final state and complete its claim. -/
def finish (cfg : Config) (data : PaymentInput) (fingerprint : String) (payment : Payment)
    (last : EventType) : Service Unit := do
  modify fun s => { s with payment := some payment }
  let events ← paymentEvents payment last
  save cfg payment events
  cfg.coordinator.complete data.key fingerprint payment.id
  modify fun s => { s with claimed := false }

/-- The payment object, with what has been assigned to its fields so far. -/
def current (payment : Payment) : Service Payment := do
  let s ← Program.get
  return s.payment.getD payment

def tryCandidate (cfg : Config) (data : PaymentInput) (fingerprint : String) (payment : Payment)
    (candidate : Provider) : Service Payment := do
  let result ← attemptProvider cfg payment candidate data
  let payment ← current payment
  let payment := { payment with
    status := .succeeded
    providerReference := some result.reference
    provider := some candidate }
  finish cfg data fingerprint payment .paymentSucceeded
  return payment

def failoverErrors : List String :=
  ["PROVIDER_UNAVAILABLE", "HTTP_502", "HTTP_503", "CIRCUIT_OPEN"]

/-- The loop over the candidates: a payment once one has completed it, or nothing when the
loop is left because of an error or has run through. -/
def tryCandidates (cfg : Config) (data : PaymentInput) (fingerprint : String) (payment : Payment) :
    List Provider → Service (Option Payment)
  | [] => return none
  | candidate :: rest => do
    let answer ← attempt (tryCandidate cfg data fingerprint payment candidate)
    match answer with
    | .ok payment => return some payment
    | .error (.provider error) => do
      modify fun s => { s with lastError := some error }
      if error.code ∉ failoverErrors then return none
      else tryCandidates cfg data fingerprint payment rest
    | .error x => raise x

def healthyProviders : List Provider → Service (List Provider)
  | [] => return []
  | provider :: rest => do
    let healthy ← await (perform (.provider (.healthCheck provider)))
    let others ← healthyProviders rest
    return if healthy then provider :: others else others

def newPayment (data : PaymentInput) (fingerprint : String) : Service Payment := do
  let id ← uuid4
  let createdAt ← now
  let updatedAt ← now
  return {
    merchantId := data.merchantId
    amount := data.amount
    currency := data.currency
    paymentMethodType := data.paymentMethodType
    idempotencyKey := data.idempotencyKey
    requestFingerprint := fingerprint
    id, createdAt, updatedAt }

/-- Route a new payment, with the claim held. -/
def orchestrate (cfg : Config) (data : PaymentInput) (fingerprint : String) : Service Payment := do
  let payment ← newPayment data fingerprint
  modify fun s => { s with payment := some payment }
  let healthy ← healthyProviders cfg.providers
  let provider ← await (perform (.provider (.choose healthy)))
  let ordered := provider :: healthy.filter (fun p => p ≠ provider)
  let completed ← tryCandidates cfg data fingerprint payment ordered
  match completed with
  | some payment => return payment
  | none => do
    let payment ← current payment
    finish cfg data fingerprint { payment with status := .failed } .paymentFailed
    let s ← Program.get
    match s.lastError with
    | some error => raise (.provider error)
    | none => raise (.provider ⟨"PROVIDER_UNAVAILABLE", "No provider completed the payment"⟩)

def conflict : Exn :=
  .idempotencyConflict "Idempotency-Key was reused with different payment data"

/-- What `create` does inside its `try` block. -/
def createClaimed (cfg : Config) (data : PaymentInput) (fingerprint : String) : Service Payment := do
  let existing ← await (perform (.store (.getByIdempotency data.key)))
  match existing with
  | some existing =>
    if existing.requestFingerprint ≠ fingerprint then raise conflict
    else
      cfg.coordinator.complete data.key fingerprint existing.id
      modify fun s => { s with claimed := false }
      return existing
  | none => orchestrate cfg data fingerprint

/-- Give up a claim that is still held; only a cancellation gets out of here. -/
def release (cfg : Config) (data : PaymentInput) (fingerprint : String) : Service Unit := do
  let s ← Program.get
  onlyIf (s.claimed = true) do
    let answer ← attempt (cfg.coordinator.abort data.key fingerprint)
    match answer with
    | .error .cancelled => raise .cancelled
    | _ => pure ()

def storedResult (decision : IdempotencyDecision) : Service (Option Payment) :=
  match decision.paymentId with
  | some paymentId => get paymentId
  | none => pure none

def replay (decision : IdempotencyDecision) : Service Payment := do
  let existing ← storedResult decision
  match existing with
  | some existing => return existing
  | none =>
    raise (.idempotencyUnavailable "Idempotency result is missing its authoritative payment")

def create (cfg : Config) (data : PaymentInput) : Service Payment := do
  let fingerprint := requestFingerprint cfg.sha256 data
  let decision ← cfg.coordinator.acquire data.key fingerprint
  match decision.status with
  | .conflict => raise conflict
  | .completed => replay decision
  | .claimed => do
    modify fun s => { s with claimed := true }
    let answer ← attempt (createClaimed cfg data fingerprint)
    match answer with
    | .ok payment => return payment
    | .error x => do
      release cfg data fingerprint
      raise x

def refundable (payment : Payment) : Bool :=
  payment.status = .succeeded || payment.status = .refunded

def applyRefund (payment : Payment) (refund : Refund) : Payment :=
  let refundedAmount := payment.refundedAmount + refund.amount
  { payment with
    refundedAmount
    refunds := payment.refunds ++ [refund]
    status := if refundedAmount = payment.amount then .refunded else payment.status }

/-- What `refund` does with the lock of the payment held. -/
def refundLocked (cfg : Config) (paymentId : Uuid) (amount : Option ℤ) : Service Refund := do
  let found ← get paymentId
  match found with
  | none => raise (.refund "Payment not found" "VALIDATION_ERROR")
  | some payment =>
    if refundable payment = false then
      raise (.refund "Only a successful payment can be refunded" "VALIDATION_ERROR")
    else
      let remaining := payment.amount - payment.refundedAmount
      let refundAmount := amount.getD remaining
      if refundAmount ≤ 0 ∨ refundAmount > remaining then
        raise (.refund "Refund amount exceeds the remaining refundable amount" "VALIDATION_ERROR")
      else
        match cfg.providers.find? (fun p => some p = payment.provider) with
        | none =>
          raise (.refund "Original payment provider is unavailable" "PROVIDER_UNAVAILABLE")
        | some provider => do
          perform (.provider (.startRefund provider payment.id refundAmount))
          let result ← await (perform (.provider (.finishRefund provider payment.id refundAmount)))
          let id ← uuid4
          let createdAt ← now
          let refund : Refund :=
            ⟨payment.id, refundAmount, some result.reference, id, createdAt⟩
          let payment ← perform (.store (.reread payment))
          let payment := applyRefund payment refund
          let event ← paymentEvent payment .paymentRefunded payment.status
          save cfg payment [event]
          return refund

/-- The table of locks is itself locked, but never across a suspension. -/
def refund (cfg : Config) (paymentId : Uuid) (amount : Option ℤ) : Service Refund := do
  await (perform (.refundLock (.acquire paymentId)))
  ensure (refundLocked cfg paymentId amount) (perform (.refundLock (.release paymentId)))

end Service

namespace Coordinator

theorem uses_perform {e : Effect} (h : e.coordinating) : Uses Effect.coordinating (perform e) :=
  uses_effect h

/-- The coordinator of one process, or one about which nothing is known. -/
def direct : Coordinator where
  acquire key fingerprint := await (perform (.coordinator (.acquire key fingerprint)))
  complete key fingerprint paymentId :=
    await (perform (.coordinator (.complete key fingerprint paymentId)))
  abort key fingerprint := await (perform (.coordinator (.abort key fingerprint)))
  acquire_uses _ _ := uses_await (uses_perform trivial)
  complete_uses _ _ _ := uses_await (uses_perform trivial)
  abort_uses _ _ := uses_await (uses_perform trivial)

/-- Every `Exception` of a command becomes `IdempotencyUnavailable`. -/
def guarded {α : Type} (m : Service α) : Service α := do
  let answer ← attempt m
  match answer with
  | .ok a => return a
  | .error .cancelled => raise .cancelled
  | .error _ => raise (.idempotencyUnavailable "Redis idempotency is unavailable")

theorem uses_guarded {α : Type} {A : Effect → Prop} {m : Service α} (h : Uses A m) :
    Uses A (guarded m) := by
  refine uses_bind (uses_attempt h) fun answer => ?_
  split
  · exact uses_pure _
  · exact uses_raise _
  · exact uses_raise _

def redis (sha256 : List Char → String) (processingTtlSeconds : ℕ) : Coordinator where
  acquire key fingerprint := guarded do
    await (perform (.redis (.claim (redisKey sha256 key) fingerprint processingTtlSeconds)))
  complete key fingerprint paymentId := guarded do
    await (perform (.redis (.hset (redisKey sha256 key) fingerprint paymentId)))
    await (perform (.redis (.expire (redisKey sha256 key) processingTtlSeconds)))
  abort key fingerprint := guarded do
    let current ← await (perform (.redis (.hget (redisKey sha256 key))))
    onlyIf (current = some fingerprint) (await (perform (.redis (.delete (redisKey sha256 key)))))
  acquire_uses _ _ := uses_guarded (uses_await (uses_perform trivial))
  complete_uses _ _ _ := uses_guarded
    (uses_bind (uses_await (uses_perform trivial)) fun _ => uses_await (uses_perform trivial))
  abort_uses _ _ := uses_guarded
    (uses_bind (uses_await (uses_perform trivial)) fun _ =>
      uses_onlyIf (uses_await (uses_perform trivial)))

end Coordinator

end PySwitch
