import PySwitch.Async.Invariant
import PySwitch.Service

namespace PySwitch

open Async

inductive Call where
  | create (data : PaymentInput)
  | refund (paymentId : Uuid) (amount : Option ℤ)
  | recover (provider : Provider)

inductive Result where
  | payment (payment : Payment)
  | refund (refund : Refund)
  | recovered
  deriving DecidableEq, Repr

/-- What changes the world without being a call of the service. -/
inductive Outside where
  | setProviderConcurrency (provider : Provider) (limit : ℕ)
  | tick (elapsed : Seconds)

def Call.run (cfg : Config) : Call → Service Result
  | .create data => do
    let payment ← Service.create cfg data
    return .payment payment
  | .refund paymentId amount => do
    let refund ← Service.refund cfg paymentId amount
    return .refund refund
  | .recover provider => do
    Service.recordSuccess cfg provider
    return .recovered

def Outside.apply : Outside → World → Option World
  | .setProviderConcurrency provider limit, w =>
    some { w with process := w.process.setProviderConcurrency provider limit }
  | .tick elapsed, w => (w.shared.redis.tick elapsed).map (Effect.setRedis w)

/-- One process of the payment service. -/
def system (cfg : Config) (profile : Profile) :
    System Tid Call Effect Effect.Reply (Except Exn Result) Input Outside World where
  program c := (c.run cfg).start {}
  enter := Effect.enter profile
  resume := Effect.resume profile
  outside := Outside.apply

abbrev ServiceState : Type := State Tid Call Effect Effect.Reply (Except Exn Result) World

abbrev ServiceLabel : Type := Label Tid Call Input Outside

abbrev ServiceTask : Type := Task Call Effect Effect.Reply (Except Exn Result)

namespace Scenario

def card (idempotencyKey : String) : PaymentInput :=
  ⟨"merchant", 100, "EUR", "card", "token", idempotencyKey⟩

def service (providers : List Provider) (maxAttempts : ℕ) : Config :=
  ⟨providers, { maxAttempts := maxAttempts }, .direct, .store, String.ofList⟩

/-- A circuit that opens at the first failure. -/
def fragile : CircuitBreaker where
  failureThreshold := 1
  cooldownSeconds := 30
  threshold_pos := by decide
  cooldown_nonneg := by norm_num
  probeLimit_pos := by decide

def unavailable : ProviderError := { code := "PROVIDER_UNAVAILABLE" }

variable (t : Tid) (now : Seconds)

/-- A new call claims its key, finds the providers healthy and chooses the first of them. -/
def create (data : PaymentInput) (providers : ℕ) : List ServiceLabel :=
  [.call t (.create data), .enter t .go, .enter t .go, .enter t .go, .enter t (.at now),
    .enter t (.at now)] ++
  (List.replicate providers [.enter t .suspend, .resume t (.healthy (.ok true))]).flatten ++
  [.enter t (.pick 0)]

/-- Ask the circuit, and go on to the semaphore of the provider. -/
def ask : List ServiceLabel :=
  [.enter t (.at now), .enter t (.at now), .enter t .go, .enter t .go]

/-- Start the provider call and wait for it. -/
def start : List ServiceLabel := [.enter t .go, .enter t .suspend]

def returns (reference : String) : List ServiceLabel :=
  [.resume t (.outcome (.ok { reference := reference }))]

def raises (error : ProviderError) : List ServiceLabel :=
  [.resume t (.outcome (.error (.provider error)))]

/-- Record a failure at the circuit. -/
def recordFailure : List ServiceLabel := List.replicate 3 (.enter t (.at now))

/-- Append a circuit event to the outbox, or one of the three events of a payment. -/
def event : List ServiceLabel := [.enter t .go, .enter t (.at now)]

/-- Save a payment with its events and complete the claim. -/
def finish : List ServiceLabel :=
  (List.replicate 3 (event t now)).flatten ++ [.enter t .go, .enter t .go]

/-- Record a success at a circuit that is closed already, and the attempt. -/
def recordSuccess : List ServiceLabel :=
  [.enter t .go, .enter t (.at now), .enter t (.at now), .enter t (.at now)]

/-- A payment that one provider completes at once. -/
def paidRun (idempotencyKey : String) : List ServiceLabel :=
  create t now (card idempotencyKey) 1 ++ ask t now ++ start t ++ returns t "reference" ++
  recordSuccess t now ++ finish t now

/-- A refund, from its lock to the call of the provider. -/
def startRefund (paymentId : Uuid) (amount : Option ℤ) : List ServiceLabel :=
  [.call t (.refund paymentId amount), .enter t .go, .enter t .go, .enter t .go,
    .enter t .suspend]

/-- Record a refund, save the payment with its event and release the lock. -/
def finishRefund : List ServiceLabel :=
  returns t "refund" ++ event t now ++ [.enter t .go] ++ event t now ++
  [.enter t .go, .enter t .go]

/-- A payment over one provider that fails there and opens a fragile circuit. -/
def failedRun (failedAt : Seconds) : List ServiceLabel :=
  create t now (card "a") 1 ++ ask t now ++ start t ++ raises t unavailable ++
  recordFailure t failedAt ++ event t failedAt ++ [.enter t .go, .enter t .go,
    .enter t (.at failedAt)] ++ finish t failedAt

end Scenario

end PySwitch
