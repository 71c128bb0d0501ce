import PySwitch.Async.Oracle
import PySwitch.SoloCreate

namespace PySwitch.Solo

open Async Program Service Visits

section Troubled

open Scenario

/-- What a task is told that asks a provider that is healthy and always unavailable. -/
def told : Effect → Input
  | .host .now => .at 0
  | .host .random => .number 0
  | .host (.sleep _) => .suspend
  | .circuit (.allowRequest _) => .at 0
  | .circuit (.recordFailure _) => .at 0
  | .stats (.finishRequest _ _ _ _) => .at 0
  | .provider (.healthCheck _) => .suspend
  | .provider (.choose _) => .pick 0
  | .provider (.finishPayment _ _) => .suspend
  | _ => .go

def woken : Effect → Input
  | .provider (.healthCheck _) => .healthy (.ok true)
  | .provider (.finishPayment _ _) => .outcome (.error (.provider unavailable))
  | _ => .go

/-- The circuit has counted `n` failures and stays closed, no limit is set and nothing is saved. -/
structure Calm (p : Provider) (w : World) (n : ℕ) : Prop where
  closed : (w.circuit p).state = .closed
  failures : (w.circuit p).consecutiveFailures = n
  threshold : 1025 < (w.circuit p).failureThreshold
  unlimited : w.process.currentSemaphore p = none
  unsaved : ∀ id, w.store.payments id = none

variable {p : Provider} {s : Locals} {w : World} {n : ℕ} {cfg : Config}

theorem Calm.move (calm : Calm p w n) {c : CircuitBreaker} {m : ℕ} (closed : c.state = .closed)
    (failures : c.consecutiveFailures = m) (threshold : 1025 < c.failureThreshold) :
    Calm p (w.moveCircuit 0 p c) m := by
  unfold World.moveCircuit
  rw [if_pos (calm.closed.trans closed.symm)]
  constructor
  · simpa [World.circuit] using closed
  · simpa [World.circuit] using failures
  · simpa [World.circuit] using threshold
  · exact calm.unlimited
  · exact calm.unsaved

theorem Calm.same (calm : Calm p w n) {w' : World}
    (circuits : w'.process.circuits = w.process.circuits)
    (current : w'.process.currentSemaphore = w.process.currentSemaphore)
    (store : w'.store.payments = w.store.payments) : Calm p w' n := by
  have circuit : w'.circuit p = w.circuit p := congrFun circuits _
  constructor
  · rw [circuit, calm.closed]
  · rw [circuit, calm.failures]
  · rw [circuit]
    exact calm.threshold
  · rw [current, calm.unlimited]
  · rw [store]
    exact calm.unsaved

theorem Calm.note (calm : Calm p w n) (h : Happening) : Calm p (w.note h) n :=
  ⟨calm.closed, calm.failures, calm.threshold, calm.unlimited, calm.unsaved⟩

variable (many : 1025 < cfg.retryPolicy.maxAttempts)

include many

omit many

end Troubled

def patient : CircuitBreaker :=
  { Scenario.fragile with
    failureThreshold := 2000
    threshold_pos := by decide }

end PySwitch.Solo
