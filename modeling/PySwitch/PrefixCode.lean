import Mathlib.Data.List.Basic
import Mathlib.Logic.Function.Basic

namespace PySwitch.PrefixCode

open Function

variable {α β σ : Type}

/-- The word a code gives a value can be read off the front of any text. -/
def SelfDelimiting (f : α → List σ) : Prop :=
  ∀ a b xs ys, f a ++ xs = f b ++ ys → a = b ∧ xs = ys

variable {f : α → List σ} {g : β → List σ}

theorem SelfDelimiting.injective (hf : SelfDelimiting f) : Injective f :=
  fun a b h => (hf a b [] [] (by rw [h])).1

theorem of_decoder {decode : List σ → Option (α × List σ)}
    (h : ∀ a xs, decode (f a ++ xs) = some (a, xs)) : SelfDelimiting f := by
  intro a b xs ys same
  have read := h a xs
  rw [same, h b ys] at read
  cases read
  exact ⟨rfl, rfl⟩

theorem SelfDelimiting.append (hf : SelfDelimiting f) (hg : SelfDelimiting g) :
    SelfDelimiting fun p : α × β => f p.1 ++ g p.2 := by
  intro p q xs ys same
  rw [List.append_assoc, List.append_assoc] at same
  obtain ⟨first, rest⟩ := hf _ _ _ _ same
  obtain ⟨second, rest⟩ := hg _ _ _ _ rest
  exact ⟨Prod.ext first second, rest⟩

theorem SelfDelimiting.after (word : List σ) (hf : SelfDelimiting f) :
    SelfDelimiting fun a => word ++ f a := by
  intro a b xs ys same
  rw [List.append_assoc, List.append_assoc] at same
  exact hf _ _ _ _ (List.append_cancel_left same)

theorem SelfDelimiting.before (hf : SelfDelimiting f) (word : List σ) :
    SelfDelimiting fun a => f a ++ word := by
  intro a b xs ys same
  rw [List.append_assoc, List.append_assoc] at same
  obtain ⟨first, rest⟩ := hf _ _ _ _ same
  exact ⟨first, List.append_cancel_left rest⟩

theorem SelfDelimiting.comp (hf : SelfDelimiting f) {h : β → α} (inj : Injective h) :
    SelfDelimiting fun b => f (h b) := by
  intro a b xs ys same
  obtain ⟨first, rest⟩ := hf _ _ _ _ same
  exact ⟨inj first, rest⟩

/-- What stands before the first stop symbol, and what stands after it. -/
theorem split_stop {q : σ} {u v xs ys : List σ} (hu : q ∉ u) (hv : q ∉ v)
    (same : u ++ q :: xs = v ++ q :: ys) : u = v ∧ xs = ys := by
  induction u generalizing v with
  | nil =>
    cases v with
    | nil => exact ⟨rfl, (List.cons.inj same).2⟩
    | cons c v => exact absurd ((List.cons.inj same).1 ▸ List.mem_cons_self ..) hv
  | cons c u ih =>
    cases v with
    | nil => exact absurd ((List.cons.inj same).1 ▸ List.mem_cons_self ..) hu
    | cons d v =>
      obtain ⟨rfl, rest⟩ := List.cons.inj same
      obtain ⟨rfl, tail⟩ := ih (fun h => hu (List.mem_cons_of_mem _ h))
        (fun h => hv (List.mem_cons_of_mem _ h)) rest
      exact ⟨rfl, tail⟩

theorem stopped {q : σ} (inj : Injective f) (free : ∀ a, q ∉ f a) :
    SelfDelimiting fun a => f a ++ [q] := by
  intro a b xs ys same
  rw [List.append_assoc, List.append_assoc] at same
  obtain ⟨word, rest⟩ := split_stop (free a) (free b) same
  exact ⟨inj word, rest⟩

/-- Words that start with another symbol than the stop can be put one after the other. -/
theorem SelfDelimiting.flatMap {q : σ} (hf : SelfDelimiting f)
    (starts : ∀ a, ∃ c word, f a = c :: word ∧ c ≠ q) :
    SelfDelimiting fun as : List α => as.flatMap f ++ [q] := by
  intro as bs xs ys same
  induction as generalizing bs with
  | nil =>
    cases bs with
    | nil => exact ⟨rfl, (List.cons.inj same).2⟩
    | cons b bs =>
      obtain ⟨c, word, hb, different⟩ := starts b
      simp only [List.flatMap_nil, List.flatMap_cons, hb, List.cons_append, List.nil_append] at same
      exact absurd (List.cons.inj same).1.symm different
  | cons a as ih =>
    cases bs with
    | nil =>
      obtain ⟨c, word, ha, different⟩ := starts a
      simp only [List.flatMap_nil, List.flatMap_cons, ha, List.cons_append, List.nil_append] at same
      exact absurd (List.cons.inj same).1 different
    | cons b bs =>
      simp only [List.flatMap_cons, List.append_assoc] at same
      obtain ⟨rfl, rest⟩ := hf _ _ _ _ same
      obtain ⟨rfl, tail⟩ := ih bs (by simpa using rest)
      exact ⟨rfl, tail⟩

end PySwitch.PrefixCode
