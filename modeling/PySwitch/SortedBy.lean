import Mathlib.Data.List.Nodup
import Mathlib.Data.List.Perm.Basic
import Mathlib.Data.List.Sort
import Mathlib.Logic.Equiv.Basic
import Mathlib.Order.Bounds.Basic

namespace PySwitch.SortedBy

variable {α κ : Type} [LinearOrder κ] (key : α → κ) {rows ordered : List α}

/-- Sorting by a key leaves it open where rows of one key come among each other. -/
structure Arranges (rows ordered : List α) : Prop where
  perm : ordered.Perm rows
  sorted : ordered.Pairwise fun a b => key a ≤ key b

def Increasing (rows : List α) : Prop := rows.Pairwise fun a b => key a < key b

instance : Decidable (Increasing key rows) :=
  inferInstanceAs (Decidable (rows.Pairwise fun a b => key a < key b))

variable {key}

theorem Increasing.inj (h : Increasing key rows) {a b : α} (ha : a ∈ rows) (hb : b ∈ rows)
    (same : key a = key b) : a = b := by
  have nodup : (rows.map key).Nodup := (List.pairwise_map.mpr h).imp fun lt => ne_of_lt lt
  exact List.inj_on_of_nodup_map nodup ha hb same

theorem Arranges.filter (h : Arranges key rows ordered) (p : α → Bool) :
    Arranges key (rows.filter p) (ordered.filter p) := ⟨h.perm.filter p, h.sorted.filter p⟩

theorem Arranges.eq (h : Arranges key rows ordered) (increasing : Increasing key rows) :
    ordered = rows := by
  apply List.Perm.eq_of_pairwise _ h.sorted (increasing.imp le_of_lt) h.perm
  intro a b ha hb hab hba
  exact increasing.inj (h.perm.subset ha) hb (le_antisymm hab hba)

/-- The entry at a rank is the least value that more values than the rank do not exceed. -/
theorem Arranges.isLeast {values sorted : List κ} (h : Arranges id values sorted) {rank : ℕ}
    (bound : rank < sorted.length) :
    IsLeast {v | v ∈ values ∧ rank < values.countP (fun u => u ≤ v)} sorted[rank] := by
  have counts (v : κ) : values.countP (fun u => u ≤ v) = sorted.countP fun u => u ≤ v :=
    (h.perm.countP_eq _).symm
  have ordered := List.pairwise_iff_getElem.mp h.sorted
  constructor
  · refine ⟨h.perm.subset (List.getElem_mem bound), ?_⟩
    rw [counts]
    have below : ∀ u ∈ sorted.take (rank + 1), u ≤ sorted[rank] := by
      intro u hu
      obtain ⟨i, hi, rfl⟩ := List.getElem_of_mem hu
      rw [List.length_take] at hi
      rw [List.getElem_take]
      obtain before | rfl := Nat.lt_or_eq_of_le (show i ≤ rank by omega)
      · exact ordered i rank (by omega) bound before
      · exact le_refl _
    have all : (sorted.take (rank + 1)).countP (fun u => u ≤ sorted[rank]) = rank + 1 := by
      rw [List.countP_eq_length.mpr (by simpa using below), List.length_take]
      omega
    have part : _ ≤ sorted.countP fun u => u ≤ sorted[rank] :=
      (List.take_sublist (rank + 1) sorted).countP_le
    omega
  · rintro v ⟨-, many⟩
    by_contra less
    rw [counts, ← List.take_append_drop rank sorted, List.countP_append] at many
    have none : (sorted.drop rank).countP (fun u => u ≤ v) = 0 := by
      rw [List.countP_eq_zero]
      intro u hu low
      obtain ⟨i, hi, rfl⟩ := List.getElem_of_mem hu
      rw [List.length_drop] at hi
      rw [List.getElem_drop] at low
      have above : sorted[rank] ≤ sorted[rank + i] := by
        obtain rfl | positive := Nat.eq_zero_or_pos i
        · exact le_refl _
        · exact ordered rank (rank + i) bound (by omega) (by omega)
      exact less (above.trans (of_decide_eq_true low))
    have few : (sorted.take rank).countP (fun u => u ≤ v) ≤ rank :=
      List.countP_le_length.trans (List.length_take_le _ _)
    omega

theorem exists_arranges (key : α → κ) (rows : List α) : ∃ ordered, Arranges key rows ordered := by
  refine ⟨rows.mergeSort fun a b => key a ≤ key b, List.mergeSort_perm .., ?_⟩
  have sorted := @List.pairwise_mergeSort _ (fun a b => decide (key a ≤ key b))
    (fun a b c hab hbc => by simpa using le_trans (of_decide_eq_true hab) (of_decide_eq_true hbc))
    (fun a b => by simpa using le_total (key a) (key b)) rows
  exact sorted.imp of_decide_eq_true

/-- Two rows of one key can change places. -/
theorem Arranges.swap [DecidableEq α] (h : Arranges key rows ordered) (nodup : rows.Nodup)
    {a b : α} (ha : a ∈ rows) (hb : b ∈ rows) (same : key a = key b) :
    Arranges key rows (ordered.map (Equiv.swap a b)) := by
  have keys (x : α) : key (Equiv.swap a b x) = key x := by
    rw [Equiv.swap_apply_def]
    split
    · rename_i hx
      rw [hx, same]
    · split
      · rename_i hx
        rw [hx, same]
      · rfl
  have mem (x : α) (hx : x ∈ rows) : Equiv.swap a b x ∈ rows := by
    rw [Equiv.swap_apply_def]
    split
    · exact hb
    · split
      · exact ha
      · exact hx
  constructor
  · have ordered_nodup : ordered.Nodup := h.perm.nodup_iff.mpr nodup
    apply (List.perm_ext_iff_of_nodup (ordered_nodup.map (Equiv.swap a b).injective) nodup).mpr
    intro x
    rw [List.mem_map]
    constructor
    · rintro ⟨y, hy, rfl⟩
      exact mem y (h.perm.subset hy)
    · intro hx
      exact ⟨Equiv.swap a b x, h.perm.symm.subset (mem x hx), Equiv.swap_apply_self a b x⟩
  · rw [List.pairwise_map]
    simpa only [keys] using h.sorted

/-- Some of the rows come in their order however all of them are sorted, if and only if their
keys increase. -/
theorem increasing_iff [DecidableEq α] (nodup : rows.Nodup) (p : α → Bool) :
    Increasing key (rows.filter p) ↔
      ∀ ordered, Arranges key rows ordered → ordered.filter p = rows.filter p := by
  constructor
  · exact fun increasing ordered h => (h.filter p).eq increasing
  · intro kept
    obtain ⟨ordered, h⟩ := exists_arranges key rows
    have sorted := (h.filter p).sorted
    rw [kept ordered h] at sorted
    apply List.pairwise_iff_forall_sublist.mpr
    intro a b hab
    apply lt_of_le_of_ne (List.pairwise_iff_forall_sublist.mp sorted hab)
    intro same
    have ha : a ∈ rows.filter p := hab.subset (by simp)
    have hb : b ∈ rows.filter p := hab.subset (by simp)
    have differ : a ≠ b := by
      rintro rfl
      exact absurd ((nodup.filter p).sublist hab) (by simp)
    have swapped := kept _ (h.swap nodup (List.mem_filter.mp ha).1 (List.mem_filter.mp hb).1 same)
    have through : (ordered.map (Equiv.swap a b)).filter p =
        (ordered.filter p).map (Equiv.swap a b) := by
      rw [List.filter_map]
      congr 1
      apply List.filter_congr
      intro x _
      simp only [Function.comp, Equiv.swap_apply_def]
      split
      · rename_i hx
        rw [hx, (List.mem_filter.mp ha).2, (List.mem_filter.mp hb).2]
      · split
        · rename_i hx
          rw [hx, (List.mem_filter.mp ha).2, (List.mem_filter.mp hb).2]
        · rfl
    rw [through, kept ordered h] at swapped
    have fixed : Equiv.swap a b a = a := by
      have all := List.map_inj_left.mp (swapped.trans (List.map_id _).symm)
      exact all a ha
    rw [Equiv.swap_apply_left] at fixed
    exact differ fixed.symm

end PySwitch.SortedBy
