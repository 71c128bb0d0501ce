import PySwitch.Coordinator
import PySwitch.Redis
import PySwitch.Reliability
import PySwitch.Routing
import PySwitch.Semaphore
import PySwitch.Store

namespace PySwitch

/-- What happened at circuits and providers, for properties of whole runs. -/
inductive Happening where
  | permitted (t : Tid) (provider : Provider) (state : CircuitState)
  | transition (t : Tid) (provider : Provider) (previous current : CircuitState)
  | paymentStarted (t : Tid) (provider : Provider) (paymentId : Uuid)
  | paymentEnded (t : Tid) (provider : Provider) (paymentId : Uuid)
      (answer : Except Exn ProviderPaymentResult)
  | refundEnded (t : Tid) (provider : Provider) (paymentId : Uuid) (amount : ℤ)
      (answer : Except Exn ProviderPaymentResult)
  deriving DecidableEq

/-- The state one process keeps for itself. -/
structure Process where
  circuits : Provider → CircuitBreaker
  stats : Provider → ProviderStats
  retriesTotal : Provider → ℕ
  semaphores : ℕ → Semaphore
  currentSemaphore : Provider → Option ℕ
  nextSemaphore : ℕ
  refundLocks : Uuid → Semaphore
  idempotency : MemoryIdempotencyCoordinator

/-- The state that several processes can share. The latest happening comes first. -/
structure Shared where
  store : InMemoryPaymentStore
  redis : Redis
  nextUuid : Uuid
  log : List Happening

structure World where
  process : Process
  shared : Shared

namespace Process

/-- A new semaphore object; calls that hold or await the one before keep to that one. -/
def setProviderConcurrency (p : Process) (provider : Provider) (limit : ℕ) : Process :=
  { p with
    semaphores := Function.update p.semaphores p.nextSemaphore (Semaphore.make limit)
    currentSemaphore := Function.update p.currentSemaphore provider
      (if limit = 0 then none else some p.nextSemaphore)
    nextSemaphore := p.nextSemaphore + 1 }

def initial (circuit : CircuitBreaker) (concurrency : List (Provider × ℕ)) : Process :=
  concurrency.foldl (fun p c => p.setProviderConcurrency c.1 c.2)
    { circuits := fun _ => circuit
      stats := fun _ => {}
      retriesTotal := fun _ => 0
      semaphores := fun _ => Semaphore.make 0
      currentSemaphore := fun _ => none
      nextSemaphore := 0
      refundLocks := fun _ => Semaphore.make 1
      idempotency := MemoryIdempotencyCoordinator.empty }

theorem initial_eq {α : Type} (f : Process → α)
    (hf : ∀ p provider limit, f (p.setProviderConcurrency provider limit) = f p)
    (circuit : CircuitBreaker) (concurrency : List (Provider × ℕ)) :
    f (initial circuit concurrency) = f (initial circuit []) := by
  have h (l : List (Provider × ℕ)) (p : Process) :
      f (l.foldl (fun p c => p.setProviderConcurrency c.1 c.2) p) = f p := by
    induction l generalizing p with
    | nil => rfl
    | cons c l ih => exact (ih _).trans (hf p c.1 c.2)
  exact h concurrency _

end Process

def Shared.initial : Shared := ⟨InMemoryPaymentStore.empty, Redis.empty, 0, []⟩

namespace World

def initial (circuit : CircuitBreaker) (concurrency : List (Provider × ℕ)) : World :=
  ⟨Process.initial circuit concurrency, Shared.initial⟩

def circuit (w : World) (provider : Provider) : CircuitBreaker := w.process.circuits provider

theorem initial_circuit (circuit : CircuitBreaker) (concurrency : List (Provider × ℕ))
    (p : Provider) : (initial circuit concurrency).circuit p = circuit :=
  Process.initial_eq (fun q => q.circuits p) (fun _ _ _ => rfl) circuit concurrency

def store (w : World) : InMemoryPaymentStore := w.shared.store

def log (w : World) : List Happening := w.shared.log

def note (w : World) (h : Happening) : World := { w with shared.log := h :: w.shared.log }

/-- Replace a provider's circuit, noting a change of state. -/
def moveCircuit (w : World) (t : Tid) (provider : Provider) (c : CircuitBreaker) : World :=
  let moved := { w with process.circuits := Function.update w.process.circuits provider c }
  if (w.circuit provider).state = c.state then moved
  else moved.note (.transition t provider (w.circuit provider).state c.state)

end World

end PySwitch
