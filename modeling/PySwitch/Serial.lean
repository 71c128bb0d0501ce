import Mathlib.Data.List.Basic
import Mathlib.Order.Defs.PartialOrder
import Mathlib.Logic.Function.Basic

namespace PySwitch.Serial

variable {σ τ ι ο κ T : Type}

/-- A component that handles one call after the other. -/
abbrev Handler (σ ι ο : Type) : Type := σ → ι → ο × σ

def after (handle : Handler σ ι ο) (s : σ) : List ι → σ
  | [] => s
  | i :: rest => after handle (handle s i).2 rest

/-- Every call together with its answer. -/
def answers (handle : Handler σ ι ο) (s : σ) : List ι → List (ι × ο)
  | [] => []
  | i :: rest => (i, (handle s i).1) :: answers handle (handle s i).2 rest

variable {handle : Handler σ ι ο} {s : σ} {calls : List ι}

@[simp] theorem after_nil : after handle s [] = s := rfl

@[simp] theorem after_cons (i : ι) :
    after handle s (i :: calls) = after handle (handle s i).2 calls := rfl

@[simp] theorem answers_nil : answers handle s [] = [] := rfl

@[simp] theorem answers_cons (i : ι) : answers handle s (i :: calls) =
    (i, (handle s i).1) :: answers handle (handle s i).2 calls := rfl

theorem after_append (first later : List ι) :
    after handle s (first ++ later) = after handle (after handle s first) later := by
  induction first generalizing s with
  | nil => rfl
  | cons i first ih => exact ih

theorem answers_append (first later : List ι) : answers handle s (first ++ later) =
    answers handle s first ++ answers handle (after handle s first) later := by
  induction first generalizing s with
  | nil => rfl
  | cons i first ih => simp [ih]

theorem call_of_answer {a : ι × ο} (h : a ∈ answers handle s calls) : a.1 ∈ calls := by
  induction calls generalizing s with
  | nil => simp at h
  | cons i calls ih =>
    rw [answers_cons, List.mem_cons] at h
    obtain rfl | h := h
    · simp
    · exact List.mem_cons_of_mem _ (ih h)

theorem answers_map {ι' ο' : Type} {call : ι → ι'} {answer : ο → ο'} {other : Handler σ ι' ο'}
    (agree : ∀ s i, other s (call i) = (answer (handle s i).1, (handle s i).2)) :
    (answers handle s calls).map (Prod.map call answer) = answers other s (calls.map call) := by
  induction calls generalizing s with
  | nil => rfl
  | cons i calls ih => simp [ih, agree]

theorem after_map {ι' ο' : Type} {call : ι → ι'} {other : Handler σ ι' ο'}
    (agree : ∀ s i, (other s (call i)).2 = (handle s i).2) :
    after handle s calls = after other s (calls.map call) := by
  induction calls generalizing s with
  | nil => rfl
  | cons i calls ih => simp [ih, agree]

theorem after_keeps {P : σ → Prop} (keeps : ∀ s i, P s → P (handle s i).2) (start : P s)
    (calls : List ι) : P (after handle s calls) := by
  induction calls generalizing s with
  | nil => exact start
  | cons i calls ih => exact ih (keeps s i start)

section Keyed

variable [DecidableEq κ]

/-- One component for every key; a call goes to that of its own. -/
def keyed (key : ι → κ) (handle : Handler σ ι ο) : Handler (κ → σ) ι ο := fun states i =>
  ((handle (states (key i)) i).1,
    Function.update states (key i) (handle (states (key i)) i).2)

variable {key : ι → κ} {states : κ → σ}

theorem keyed_same (i : ι) :
    (keyed key handle states i).2 (key i) = (handle (states (key i)) i).2 := by
  simp [keyed]

theorem keyed_frame {k : κ} {i : ι} (h : k ≠ key i) :
    (keyed key handle states i).2 k = states k := by
  simp [keyed, h]

theorem after_keyed (k : κ) : after (keyed key handle) states calls k =
    after handle (states k) (calls.filter fun i => key i = k) := by
  induction calls generalizing states with
  | nil => rfl
  | cons i calls ih =>
    rw [after_cons, ih]
    by_cases h : key i = k
    · subst h
      simp [keyed_same]
    · simp [h, keyed_frame (Ne.symm h)]

/-- The calls of one key are answered as if there were no others. -/
theorem answers_keyed (k : κ) :
    ((answers (keyed key handle) states calls).filter fun a => key a.1 = k) =
      answers handle (states k) (calls.filter fun i => key i = k) := by
  induction calls generalizing states with
  | nil => rfl
  | cons i calls ih =>
    rw [answers_cons, List.filter_cons, ih]
    by_cases h : key i = k
    · subst h
      simp [keyed]
    · simp [h, keyed_frame (Ne.symm h)]

end Keyed

section Simulation

variable [Preorder T] {time : ι → T} {other : Handler τ ι ο} {t : τ}

/-- Two components that answer alike whenever they are related, with a relation that may
look at the time of the latest call. -/
theorem answers_eq (R : T → σ → τ → Prop)
    (simulates : ∀ last s t, ∀ i ∈ calls, last ≤ time i → R last s t →
      (handle s i).1 = (other t i).1 ∧ R (time i) (handle s i).2 (other t i).2)
    {last : T} (start : R last s t) (later : ∀ i ∈ calls, last ≤ time i)
    (ordered : calls.Pairwise fun i j => time i ≤ time j) :
    answers handle s calls = answers other t calls := by
  induction calls generalizing last s t with
  | nil => rfl
  | cons i calls ih =>
    obtain ⟨first, ordered⟩ := List.pairwise_cons.mp ordered
    obtain ⟨same, next⟩ := simulates last s t i (by simp) (later i (by simp)) start
    rw [answers_cons, answers_cons, same]
    congr 1
    apply ih _ next first ordered
    intro last s t j hj
    exact simulates last s t j (List.mem_cons_of_mem _ hj)

end Simulation

end PySwitch.Serial
