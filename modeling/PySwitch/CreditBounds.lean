import Mathlib.Data.List.Basic
import Mathlib.Tactic.Positivity
import PySwitch.SmoothRoundRobin

namespace PySwitch.SmoothRoundRobin

variable {ι K : Type} [Field K] [LinearOrder K] [IsStrictOrderedRing K] [DecidableEq ι]
  {U s T : Finset ι} {w c : ι → K} {chosen i j : ι}

/-- A turn of those who are there; all others keep their credit. -/
def round (s : Finset ι) (w c : ι → K) (chosen i : ι) : K :=
  if i ∈ s then turn s w c chosen i else c i

/-- What `k` of `n` members can be short of together. -/
def slack (n k : ℕ) : K := n * (k * (n - k))

/-- The credits make up for each other, and no group of members is too far in debt. -/
structure Solvent (U : Finset ι) (c : ι → K) : Prop where
  sum_zero : ∑ i ∈ U, c i = 0
  above : ∀ T ⊆ U, -slack U.card T.card ≤ ∑ i ∈ T, c i

omit [DecidableEq ι] in
theorem slack_nonneg (sub : T ⊆ U) : (0 : K) ≤ slack U.card T.card := by
  have le : (T.card : K) ≤ U.card := by exact_mod_cast Finset.card_le_card sub
  by_cases none : T.card = 0
  · simp [slack, none]
  · have one : (1 : K) ≤ T.card := by exact_mod_cast Nat.one_le_iff_ne_zero.mpr none
    apply mul_nonneg
    · linarith
    · exact mul_nonneg (by linarith) (by linarith)

omit [DecidableEq ι] in
theorem solvent_zero : Solvent U fun _ => (0 : K) := by
  constructor
  · exact Finset.sum_const_zero
  · intro T sub
    rw [Finset.sum_const_zero]
    linarith [slack_nonneg (K := K) sub]

omit [LinearOrder K] [IsStrictOrderedRing K] in
theorem sum_round (mem : chosen ∈ s) : ∑ i ∈ T, round s w c chosen i =
    ∑ i ∈ T, c i + ∑ i ∈ T ∩ s, w i - if chosen ∈ T then ∑ i ∈ s, w i else 0 := by
  have each (i : ι) : round s w c chosen i =
      c i + (if i ∈ s then w i else 0) - if i = chosen then ∑ j ∈ s, w j else 0 := by
    by_cases there : i ∈ s
    · simp [round, turn, there]
    · have other : i ≠ chosen := fun same => there (same ▸ mem)
      simp [round, there, other]
  rw [Finset.sum_congr rfl fun i _ => each i, Finset.sum_sub_distrib, Finset.sum_add_distrib,
    Finset.sum_ite_mem, Finset.sum_ite_eq' T chosen]

omit [LinearOrder K] [IsStrictOrderedRing K] in
theorem sum_outside : ∑ i ∈ s, w i = ∑ i ∈ T ∩ s, w i + ∑ i ∈ s \ T, w i := by
  rw [Finset.inter_comm, Finset.sum_inter_add_sum_sdiff]

theorem sum_outside_le (sub : s ⊆ U) (inside : T ⊆ U) (le : ∀ i ∈ s, w i ≤ 1) :
    ∑ i ∈ s \ T, w i ≤ U.card - T.card := by
  have few : ((s \ T).card : K) ≤ (U \ T).card := by
    exact_mod_cast Finset.card_le_card (Finset.sdiff_subset_sdiff sub (Finset.Subset.refl T))
  rw [Finset.card_sdiff_of_subset inside, Nat.cast_sub (Finset.card_le_card inside)] at few
  calc ∑ i ∈ s \ T, w i ≤ ∑ i ∈ s \ T, (1 : K) :=
        Finset.sum_le_sum fun i hi => le i (Finset.mem_sdiff.mp hi).1
    _ = (s \ T).card := by simp
    _ ≤ U.card - T.card := few

/-- Exchanging the one who is chosen for another shows that the group could not have been as
poor as it may be at most. -/
theorem Solvent.exchange (h : Solvent U c) (inside : T ⊆ U) (member : chosen ∈ T) (known : j ∈ U)
    (other : j ∉ T) (near : c j - 1 ≤ c chosen) :
    U.card - T.card - slack U.card T.card ≤ ∑ i ∈ T, c i := by
  have fewer := h.above (T.erase chosen) ((Finset.erase_subset chosen T).trans inside)
  have more := h.above (insert j T) (Finset.insert_subset known inside)
  have without := Finset.add_sum_erase T c member
  have some : 1 ≤ T.card := Finset.card_pos.mpr ⟨chosen, member⟩
  have positive : (1 : K) ≤ T.card := by exact_mod_cast some
  rw [Finset.sum_insert other] at more
  rw [Finset.card_erase_of_mem member] at fewer
  rw [Finset.card_insert_of_notMem other] at more
  unfold slack at *
  push_cast [some] at *
  linarith

theorem Solvent.round (h : Solvent U c) (sub : s ⊆ U) (mem : chosen ∈ s)
    (positive : ∀ i ∈ s, 0 < w i) (le : ∀ i ∈ s, w i ≤ 1)
    (best : ∀ i ∈ s, c i + w i ≤ c chosen + w chosen) : Solvent U (round s w c chosen) := by
  constructor
  · rw [sum_round mem, if_pos (sub mem), Finset.inter_eq_right.mpr sub, h.sum_zero]
    ring
  · intro T inside
    rw [sum_round mem]
    have above := h.above T inside
    by_cases member : chosen ∈ T
    · rw [if_pos member, sum_outside (T := T) (s := s)]
      by_cases all : s ⊆ T
      · rw [Finset.sdiff_eq_empty_iff_subset.mpr all, Finset.sum_empty]
        linarith
      · obtain ⟨j, there, other⟩ := Finset.not_subset.mp all
        have near : c j - 1 ≤ c chosen := by
          linarith [best j there, positive j there, le chosen mem]
        have rich := h.exchange inside member (sub there) other near
        have few := sum_outside_le sub inside le
        linarith
    · rw [if_neg member]
      have credited : 0 ≤ ∑ i ∈ T ∩ s, w i :=
        Finset.sum_nonneg fun i hi => (positive i (Finset.mem_inter.mp hi).2).le
      linarith

/-- Nobody is ever far in debt, or far ahead. -/
theorem Solvent.bounds (h : Solvent U c) (mem : i ∈ U) :
    -(U.card * (U.card - 1)) ≤ c i ∧ c i ≤ U.card * (U.card - 1) := by
  have one := h.above {i} (Finset.singleton_subset_iff.mpr mem)
  have others := h.above (U.erase i) (Finset.erase_subset i U)
  have all := Finset.add_sum_erase U c mem
  rw [h.sum_zero] at all
  rw [Finset.sum_singleton, Finset.card_singleton] at one
  rw [Finset.card_erase_of_mem mem] at others
  have some : 1 ≤ U.card := Finset.card_pos.mpr ⟨i, mem⟩
  unfold slack at one others
  push_cast [some] at one others
  constructor
  · linarith
  · linarith

end PySwitch.SmoothRoundRobin
