import PySwitch.World

namespace PySwitch

open Async

inductive HostEffect where
  | now
  | random
  | uuid4
  | sleep (delay : Seconds)
  deriving DecidableEq

@[reducible] def HostEffect.Reply : HostEffect → Type
  | .now => Seconds
  | .random => ℚ
  | .uuid4 => Uuid
  | .sleep _ => Except Exn Unit

/-- Reading or moving a circuit under its lock also yields the state before and after. -/
inductive CircuitEffect where
  | allowRequest (provider : Provider)
  | recordSuccess (provider : Provider)
  | recordFailure (provider : Provider)
  deriving DecidableEq

@[reducible] def CircuitEffect.Reply : CircuitEffect → Type
  | .allowRequest _ => Bool × CircuitState × CircuitState
  | .recordSuccess _ => CircuitState × CircuitState
  | .recordFailure _ => CircuitState × CircuitState

inductive StatsEffect where
  | startRequest (provider : Provider)
  | finishRequest (provider : Provider) (success : Bool) (latencyMs : ℚ) (errorCode : Option String)
  | countRetry (provider : Provider)
  deriving DecidableEq

inductive SemaphoreEffect where
  | current (provider : Provider)
  | acquire (provider : Provider) (semaphore : ℕ)
  | release (provider : Provider) (semaphore : ℕ)
  deriving DecidableEq

@[reducible] def SemaphoreEffect.Reply : SemaphoreEffect → Type
  | .current _ => Option ℕ
  | .acquire _ _ => Except Exn Unit
  | .release _ _ => Unit

inductive RefundLockEffect where
  | acquire (paymentId : Uuid)
  | release (paymentId : Uuid)
  deriving DecidableEq

@[reducible] def RefundLockEffect.Reply : RefundLockEffect → Type
  | .acquire _ => Except Exn Unit
  | .release _ => Unit

/-- A provider call begins with one effect and ends with the next, where the task waits. -/
inductive ProviderEffect where
  | healthCheck (provider : Provider)
  | choose (healthy : List Provider)
  | startPayment (provider : Provider) (paymentId : Uuid) (amount : ℤ) (currency token : String)
  | finishPayment (provider : Provider) (paymentId : Uuid)
  | startRefund (provider : Provider) (paymentId : Uuid) (amount : ℤ)
  | finishRefund (provider : Provider) (paymentId : Uuid) (amount : ℤ)
  deriving DecidableEq

@[reducible] def ProviderEffect.Reply : ProviderEffect → Type
  | .healthCheck _ => Except Exn Bool
  | .choose _ => Except Exn Provider
  | .startPayment _ _ _ _ _ => Unit
  | .finishPayment _ _ => Except Exn ProviderPaymentResult
  | .startRefund _ _ _ => Unit
  | .finishRefund _ _ _ => Except Exn ProviderPaymentResult

inductive Effect where
  | host (e : HostEffect)
  | circuit (e : CircuitEffect)
  | stats (e : StatsEffect)
  | semaphore (e : SemaphoreEffect)
  | refundLock (e : RefundLockEffect)
  | provider (e : ProviderEffect)
  | coordinator (e : CoordinatorEffect)
  | redis (e : RedisEffect)
  | store (e : StoreEffect)
  deriving DecidableEq

@[reducible] def Effect.Reply : Effect → Type
  | .host e => e.Reply
  | .circuit e => e.Reply
  | .stats _ => Unit
  | .semaphore e => e.Reply
  | .refundLock e => e.Reply
  | .provider e => e.Reply
  | .coordinator e => e.Reply
  | .redis e => e.Reply
  | .store e => e.Reply

namespace HostEffect

def enter : (e : HostEffect) → Input → Shared → Answer e.Reply Shared
  | .now, .at reading, s => .reply reading s
  | .random, .number x, s => .reply x s
  | .uuid4, .go, s => .reply s.nextUuid { s with nextUuid := s.nextUuid + 1 }
  | .sleep _, .suspend, s => .wait s
  | _, _, _ => .refuse

def resume : (e : HostEffect) → Input → Shared → Answer e.Reply Shared
  | .sleep _, .go, s => .reply (.ok ()) s
  | .sleep _, .cancel, s => .reply (.error .cancelled) s
  | _, _, _ => .refuse

end HostEffect

def CircuitEffect.enter (t : Tid) : (e : CircuitEffect) → Input → World → Answer e.Reply World
  | .allowRequest provider, .at now, w =>
    let c := w.circuit provider
    let p := c.allowRequest now
    let moved := w.moveCircuit t provider p.2
    .reply (p.1, c.state, p.2.state)
      (if p.1 then moved.note (.permitted t provider p.2.state) else moved)
  | .recordSuccess provider, .go, w =>
    let c := w.circuit provider
    .reply (c.state, c.recordSuccess.state) (w.moveCircuit t provider c.recordSuccess)
  | .recordFailure provider, .at now, w =>
    let c := w.circuit provider
    .reply (c.state, (c.recordFailure now).state) (w.moveCircuit t provider (c.recordFailure now))
  | _, _, _ => .refuse

def StatsEffect.enter : StatsEffect → Input → Process → Answer Unit Process
  | .startRequest provider, .go, p =>
    .reply () { p with stats := Function.update p.stats provider (p.stats provider).start }
  | .finishRequest provider success latencyMs errorCode, .at now, p =>
    .reply () { p with
      stats := Function.update p.stats provider
        ((p.stats provider).finish success latencyMs errorCode now) }
  | .countRetry provider, .go, p =>
    .reply () { p with
      retriesTotal := Function.update p.retriesTotal provider (p.retriesTotal provider + 1) }
  | _, _, _ => .refuse

namespace SemaphoreEffect

def put (p : Process) (semaphore : ℕ) (s : Semaphore) : Process :=
  { p with semaphores := Function.update p.semaphores semaphore s }

def enter (t : Tid) : (e : SemaphoreEffect) → Input → Process → Answer e.Reply Process
  | .current provider, .go, p => .reply (p.currentSemaphore provider) p
  | .acquire _ semaphore, i, p => ((p.semaphores semaphore).enter t i).lift (put p semaphore)
  | .release _ semaphore, .go, p => .reply () (put p semaphore ((p.semaphores semaphore).release t))
  | _, _, _ => .refuse

def resume (t : Tid) : (e : SemaphoreEffect) → Input → Process → Answer e.Reply Process
  | .acquire _ semaphore, i, p => ((p.semaphores semaphore).resume t i).lift (put p semaphore)
  | _, _, _ => .refuse

end SemaphoreEffect

namespace RefundLockEffect

def put (p : Process) (paymentId : Uuid) (lock : Semaphore) : Process :=
  { p with refundLocks := Function.update p.refundLocks paymentId lock }

def enter (t : Tid) : (e : RefundLockEffect) → Input → Process → Answer e.Reply Process
  | .acquire paymentId, i, p => ((p.refundLocks paymentId).enter t i).lift (put p paymentId)
  | .release paymentId, .go, p =>
    .reply () (put p paymentId ((p.refundLocks paymentId).release t))
  | _, _, _ => .refuse

def resume (t : Tid) : (e : RefundLockEffect) → Input → Process → Answer e.Reply Process
  | .acquire paymentId, i, p => ((p.refundLocks paymentId).resume t i).lift (put p paymentId)
  | _, _, _ => .refuse

end RefundLockEffect

namespace ProviderEffect

/-- The router returns one of the healthy providers, whatever its strategy. -/
def enter (t : Tid) : (e : ProviderEffect) → Input → World → Answer e.Reply World
  | .choose [], .go, w => .reply (.error (.lookup "No healthy payment provider is available")) w
  | .choose healthy, .pick index, w =>
    match healthy[index]? with
    | some provider => .reply (.ok provider) w
    | none => .refuse
  | .startPayment provider paymentId _ _ _, .go, w =>
    .reply () (w.note (.paymentStarted t provider paymentId))
  | .startRefund _ _ _, .go, w => .reply () w
  | .healthCheck _, .suspend, w => .wait w
  | .finishPayment _ _, .suspend, w => .wait w
  | .finishRefund _ _ _, .suspend, w => .wait w
  | _, _, _ => .refuse

/-- A provider returns, raises, or the task is cancelled while it waits. -/
def resume (t : Tid) : (e : ProviderEffect) → Input → World → Answer e.Reply World
  | .healthCheck _, .healthy answer, w => .reply answer w
  | .healthCheck _, .cancel, w => .reply (.error .cancelled) w
  | .finishPayment provider paymentId, .outcome answer, w =>
    .reply answer (w.note (.paymentEnded t provider paymentId answer))
  | .finishPayment provider paymentId, .cancel, w =>
    .reply (.error .cancelled) (w.note (.paymentEnded t provider paymentId (.error .cancelled)))
  | .finishRefund provider paymentId amount, .outcome answer, w =>
    .reply answer (w.note (.refundEnded t provider paymentId amount answer))
  | .finishRefund provider paymentId amount, .cancel, w =>
    .reply (.error .cancelled)
      (w.note (.refundEnded t provider paymentId amount (.error .cancelled)))
  | _, _, _ => .refuse

end ProviderEffect

/-- How the dependencies of the service are backed. -/
structure Profile where
  coordinator : Backend := .memory
  storage : Backend := .memory

namespace Effect

def setProcess (w : World) (p : Process) : World := { w with process := p }

def setShared (w : World) (s : Shared) : World := { w with shared := s }

def setIdempotency (w : World) (c : MemoryIdempotencyCoordinator) : World :=
  { w with process.idempotency := c }

def setRedis (w : World) (r : Redis) : World := { w with shared.redis := r }

def setStore (w : World) (s : InMemoryPaymentStore) : World := { w with shared.store := s }

/-- What a running task meets when it comes to an effect. -/
def enter (profile : Profile) (t : Tid) : (e : Effect) → Input → World → Answer e.Reply World
  | .host e, i, w => (e.enter i w.shared).lift (setShared w)
  | .circuit e, i, w => e.enter t i w
  | .stats e, i, w => (e.enter i w.process).lift (setProcess w)
  | .semaphore e, i, w => (e.enter t i w.process).lift (setProcess w)
  | .refundLock e, i, w => (e.enter t i w.process).lift (setProcess w)
  | .provider e, i, w => e.enter t i w
  | .coordinator e, i, w =>
    match profile.coordinator with
    | .memory => (MemoryIdempotencyCoordinator.enter t e i w.process.idempotency).lift
        (setIdempotency w)
    | .external => (ExternalCoordinator.answer e i w.process.idempotency).lift (setIdempotency w)
  | .redis e, i, w => (Redis.enter e i w.shared.redis).lift (setRedis w)
  | .store e, i, w =>
    match profile.storage with
    | .memory => (InMemoryPaymentStore.enter e i w.shared.store).lift (setStore w)
    | .external => (ExternalStore.answer e i w.shared.store).lift (setStore w)

/-- What a suspended task is woken with. -/
def resume (profile : Profile) (t : Tid) : (e : Effect) → Input → World → Answer e.Reply World
  | .host e, i, w => (e.resume i w.shared).lift (setShared w)
  | .circuit _, _, _ => .refuse
  | .stats _, _, _ => .refuse
  | .semaphore e, i, w => (e.resume t i w.process).lift (setProcess w)
  | .refundLock e, i, w => (e.resume t i w.process).lift (setProcess w)
  | .provider e, i, w => e.resume t i w
  | .coordinator e, i, w =>
    match profile.coordinator with
    | .memory => (MemoryIdempotencyCoordinator.resume t e i w.process.idempotency).lift
        (setIdempotency w)
    | .external => (ExternalCoordinator.answer e i w.process.idempotency).lift (setIdempotency w)
  | .redis e, i, w => (Redis.resume e i w.shared.redis).lift (setRedis w)
  | .store e, i, w =>
    match profile.storage with
    | .memory => .refuse
    | .external => (ExternalStore.answer e i w.shared.store).lift (setStore w)

end Effect

end PySwitch
