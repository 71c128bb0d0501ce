import PySwitch.Async.EventLoop
import PySwitch.Domain

namespace PySwitch

/-- Calls of the service run as tasks of one event loop. -/
abbrev Tid : Type := ℕ

/-- What the environment contributes when a task performs an effect. -/
inductive Input where
  | go
  | at (now : Seconds)
  | number (x : ℚ)
  | pick (index : ℕ)
  | healthy (answer : Except Exn Bool)
  | outcome (answer : Except Exn ProviderPaymentResult)
  | decision (answer : Except Exn IdempotencyDecision)
  | done (answer : Except Exn Unit)
  | fail (error : Exn) (stored : Bool)
  | suspend
  | cancel

/-- Each dependency of the service is the in-process one, or an external one that may be
slow and may fail. -/
inductive Backend where
  | memory
  | external
  deriving DecidableEq

end PySwitch

namespace PySwitch.Async.Answer

variable {β ω υ : Type}

/-- An answer of one component, seen in the world that holds the component. -/
def lift (f : υ → ω) : Answer β υ → Answer β ω
  | .reply r u => .reply r (f u)
  | .wait u => .wait (f u)
  | .refuse => .refuse

theorem lift_reply {f : υ → ω} {a : Answer β υ} {r : β} {w : ω} (h : a.lift f = .reply r w) :
    ∃ u, a = .reply r u ∧ w = f u := by
  cases a with
  | reply s u => cases h; exact ⟨u, rfl, rfl⟩
  | wait u => cases h
  | refuse => cases h

theorem lift_wait {f : υ → ω} {a : Answer β υ} {w : ω} (h : a.lift f = .wait w) :
    ∃ u, a = .wait u ∧ w = f u := by
  cases a with
  | reply s u => cases h
  | wait u => cases h; exact ⟨u, rfl, rfl⟩
  | refuse => cases h

/-- The world an answer leads to, if there is one, meets `p`. -/
def Meets (p : ω → Prop) : Answer β ω → Prop
  | .reply _ w => p w
  | .wait w => p w
  | .refuse => True

theorem lift_meets {p : ω → Prop} {f : υ → ω} (a : Answer β υ) (h : ∀ u, p (f u)) :
    (a.lift f).Meets p := by
  cases a with
  | reply r u => exact h u
  | wait u => exact h u
  | refuse => trivial

end PySwitch.Async.Answer
