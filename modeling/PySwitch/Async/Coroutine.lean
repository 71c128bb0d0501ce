import Mathlib.Tactic.Common

namespace PySwitch.Async

/-- A coroutine has ended with a value, or performs an effect and continues with its reply. -/
inductive Coroutine (ε : Type) (ρ : ε → Type) (α : Type) where
  | done (a : α)
  | perform (e : ε) (k : ρ e → Coroutine ε ρ α)

variable {ε : Type} {ρ : ε → Type} {σ χ α β δ : Type}

namespace Coroutine

def bind (c : Coroutine ε ρ α) (f : α → Coroutine ε ρ β) : Coroutine ε ρ β :=
  match c with
  | .done a => f a
  | .perform e k => .perform e (fun r => (k r).bind f)

def isDone : Coroutine ε ρ α → Bool
  | .done _ => true
  | .perform _ _ => false

/-- The effect a coroutine is at. -/
def head : Coroutine ε ρ α → Option ε
  | .done _ => none
  | .perform e _ => some e

theorem perform_of_head {c : Coroutine ε ρ α} {e : ε} (h : c.head = some e) :
    ∃ k, c = .perform e k := by
  cases c with
  | done a => cases h
  | perform e' k =>
    cases h
    exact ⟨k, rfl⟩

def result : Coroutine ε ρ α → Option α
  | .done a => some a
  | .perform _ _ => none

/-- The coroutine comes to another one when its effects get the replies of a trace. -/
inductive Leads : Coroutine ε ρ α → List ((e : ε) × ρ e) → Coroutine ε ρ α → Prop
  | refl (c : Coroutine ε ρ α) : Leads c [] c
  | cons {e : ε} {k : ρ e → Coroutine ε ρ α} {r : ρ e} {trace : List ((e : ε) × ρ e)}
      {c : Coroutine ε ρ α} (rest : Leads (k r) trace c) : Leads (.perform e k) (⟨e, r⟩ :: trace) c

theorem Leads.concat {c : Coroutine ε ρ α} {trace : List ((e : ε) × ρ e)} {e : ε}
    {k : ρ e → Coroutine ε ρ α} (h : Leads c trace (.perform e k)) (r : ρ e) :
    Leads c (trace ++ [⟨e, r⟩]) (k r) := by
  generalize hd : Coroutine.perform e k = d at h
  induction h with
  | refl c =>
    subst hd
    exact .cons (.refl _)
  | cons rest ih => exact .cons (ih hd)

def map (f : α → β) (c : Coroutine ε ρ α) : Coroutine ε ρ β := c.bind (fun a => .done (f a))

end Coroutine

/-- A program over local variables `σ` that may raise `χ`. The variables keep their
values when an exception is raised, as those of a function with handlers do. -/
def Program (ε : Type) (ρ : ε → Type) (σ χ α : Type) : Type :=
  σ → Coroutine ε ρ (Except χ α × σ)

namespace Program

def raise (x : χ) : Program ε ρ σ χ α := fun s => .done (.error x, s)

protected def bind (m : Program ε ρ σ χ α) (f : α → Program ε ρ σ χ β) : Program ε ρ σ χ β :=
  fun s => (m s).bind fun
    | (.ok a, s) => f a s
    | (.error x, s) => .done (.error x, s)

instance : Monad (Program ε ρ σ χ) where
  pure a := fun s => .done (.ok a, s)
  bind := Program.bind

/-- Run a program and hand its exception, if it raises one, to the code that follows. -/
def attempt (m : Program ε ρ σ χ α) : Program ε ρ σ χ (Except χ α) :=
  fun s => (m s).bind fun p => .done (.ok p.1, p.2)

def ofExcept : Except χ α → Program ε ρ σ χ α
  | .ok a => pure a
  | .error x => raise x

/-- Perform an effect that cannot fail. -/
def effect (e : ε) : Program ε ρ σ χ (ρ e) :=
  fun s => .perform e (fun r => .done (.ok r, s))

/-- Raise the exception an awaited reply carries. -/
def await (m : Program ε ρ σ χ (Except χ α)) : Program ε ρ σ χ α := m >>= ofExcept

def get : Program ε ρ σ χ σ := fun s => .done (.ok s, s)

def modify (f : σ → σ) : Program ε ρ σ χ Unit := fun s => .done (.ok (), f s)

def onlyIf (c : Prop) [Decidable c] (m : Program ε ρ σ χ Unit) : Program ε ρ σ χ Unit :=
  if c then m else pure ()

/-- `try … finally`: the second program runs however the first one ends. -/
def ensure (m : Program ε ρ σ χ α) (cleanup : Program ε ρ σ χ Unit) : Program ε ρ σ χ α := do
  let r ← attempt m
  cleanup
  ofExcept r

/-- The coroutine of a call that starts with the given local variables. -/
def start (m : Program ε ρ σ χ α) (s : σ) : Coroutine ε ρ (Except χ α) := (m s).map Prod.fst

end Program

end PySwitch.Async
