import Mathlib.Algebra.BigOperators.Group.Finset.Piecewise
import Mathlib.Algebra.Order.BigOperators.Group.Finset
import Mathlib.Algebra.Order.Field.Basic
import Mathlib.Tactic.Linarith
import Mathlib.Tactic.Ring

namespace PySwitch.SmoothRoundRobin

variable {ι K : Type} [Field K] [LinearOrder K] [IsStrictOrderedRing K]
  {s : Finset ι} {w c : ι → K} {chosen i : ι}

/-- The credits make up for each other, and nobody is a whole turn in debt. -/
structure Balanced (s : Finset ι) (w c : ι → K) : Prop where
  sum_zero : ∑ i ∈ s, c i = 0
  above : ∀ i ∈ s, -∑ j ∈ s, w j < c i

theorem balanced_zero (nonempty : s.Nonempty) (positive : ∀ i ∈ s, 0 < w i) :
    Balanced s w fun _ => 0 :=
  ⟨Finset.sum_const_zero, fun _ _ => neg_lt_zero.mpr (Finset.sum_pos positive nonempty)⟩

theorem best_pos (h : Balanced s w c) (mem : chosen ∈ s) (positive : ∀ i ∈ s, 0 < w i)
    (best : ∀ i ∈ s, c i + w i ≤ c chosen + w chosen) : 0 < c chosen + w chosen := by
  by_contra none
  have low : ∑ i ∈ s, (c i + w i) ≤ 0 :=
    Finset.sum_nonpos fun i hi => (best i hi).trans (not_lt.mp none)
  rw [Finset.sum_add_distrib, h.sum_zero, zero_add] at low
  exact absurd (Finset.sum_pos positive ⟨chosen, mem⟩) (not_lt.mpr low)

variable [DecidableEq ι]

/-- Everyone is credited their weight, and the one who is chosen pays for all. -/
def turn (s : Finset ι) (w c : ι → K) (chosen i : ι) : K :=
  c i + w i - if i = chosen then ∑ j ∈ s, w j else 0

theorem Balanced.turn (h : Balanced s w c) (mem : chosen ∈ s) (positive : ∀ i ∈ s, 0 < w i)
    (best : ∀ i ∈ s, c i + w i ≤ c chosen + w chosen) : Balanced s w (turn s w c chosen) := by
  constructor
  · unfold SmoothRoundRobin.turn
    rw [Finset.sum_sub_distrib, Finset.sum_add_distrib, Finset.sum_ite_eq' s chosen, if_pos mem,
      h.sum_zero]
    ring
  · intro i hi
    unfold SmoothRoundRobin.turn
    split
    · rename_i same
      subst same
      have := best_pos h mem positive best
      linarith
    · have above := h.above i hi
      have := positive i hi
      linarith

theorem Balanced.le (h : Balanced s w c) (mem : i ∈ s) :
    c i ≤ (s.card - 1) * ∑ j ∈ s, w j := by
  have rest : ∑ j ∈ s.erase i, -(∑ j ∈ s, w j) ≤ ∑ j ∈ s.erase i, c j :=
    Finset.sum_le_sum fun j hj => (h.above j (Finset.mem_of_mem_erase hj)).le
  have all := Finset.add_sum_erase s c mem
  rw [h.sum_zero] at all
  rw [Finset.sum_const, Finset.card_erase_of_mem mem, nsmul_eq_mul,
    Nat.cast_pred (Finset.card_pos.mpr ⟨i, mem⟩)] at rest
  linarith

/-- Credits that are a balance of turns and choices bound the choices by the turns. -/
theorem Balanced.share {turns choices : ℕ} (h : Balanced s w c) (mem : i ∈ s)
    (positive : ∀ i ∈ s, 0 < w i) (account : c i = turns * w i - choices * ∑ j ∈ s, w j) :
    turns * w i / ∑ j ∈ s, w j - (s.card - 1) ≤ choices ∧
      (choices : K) < turns * w i / ∑ j ∈ s, w j + 1 := by
  have total := Finset.sum_pos positive ⟨i, mem⟩
  constructor
  · rw [sub_le_iff_le_add, div_le_iff₀ total]
    linarith [h.le mem]
  · rw [← sub_lt_iff_lt_add, lt_div_iff₀ total]
    linarith [h.above i mem]

end PySwitch.SmoothRoundRobin
