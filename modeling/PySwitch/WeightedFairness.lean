import Mathlib.Algebra.BigOperators.Group.List.Basic
import PySwitch.Router

namespace PySwitch.WeightedFairness

open SmoothRoundRobin

variable {K : Type} [Field K] [LinearOrder K]
  {observe : Provider → ProviderObservation K} {current : Provider → Option K}
  {pass : WeightedPass K} {seen : List Provider} {first p : Provider} {rest : List Provider}

def share (observe : Provider → ProviderObservation K) (p : Provider) : K := weight (observe p)

/-- The credit of a provider; one that was never visited has none. -/
def credit (current : Provider → Option K) (p : Provider) : K := (current p).getD 0

def score (observe : Provider → ProviderObservation K) (current : Provider → Option K)
    (p : Provider) : K := credit current p + share observe p

theorem share_pos [IsStrictOrderedRing K] (p : Provider) : 0 < share observe p :=
  lt_max_of_lt_left (by norm_num)

/-- A pass that has come through the providers seen so far. -/
structure Passed (observe : Provider → ProviderObservation K) (current : Provider → Option K)
    (seen : List Provider) (pass : WeightedPass K) : Prop where
  total : pass.total = (seen.map (share observe)).sum
  credited : ∀ p ∈ seen, pass.current p = some (score observe current p)
  frame : ∀ p ∉ seen, pass.current p = current p
  selected : seen ≠ [] → pass.selected ∈ seen ∧
    pass.selectedScore = some (score observe current pass.selected)
  best : ∀ p ∈ seen, score observe current p ≤ score observe current pass.selected
  unscored : seen = [] → pass.selectedScore = none

theorem passed_start : Passed observe current [] ⟨0, first, none, current⟩ := by
  constructor <;> simp

/-- The provider takes over as the selected one. -/
def Overtakes (observe : Provider → ProviderObservation K) (current : Provider → Option K)
    (seen : List Provider) (selected p : Provider) : Prop :=
  seen = [] ∨ score observe current selected < score observe current p

open Classical in
theorem Passed.visit_eq (h : Passed observe current seen pass) (fresh : p ∉ seen) :
    pass.visit observe p =
      { total := pass.total + share observe p
        selected := if Overtakes observe current seen pass.selected p then p else pass.selected
        selectedScore := if Overtakes observe current seen pass.selected p then
          some (score observe current p) else pass.selectedScore
        current := Function.update pass.current p (some (score observe current p)) } := by
  have here : (pass.current p).getD 0 + weight (observe p) = score observe current p := by
    rw [h.frame p fresh]
    rfl
  unfold WeightedPass.visit Overtakes
  dsimp only
  rw [here]
  by_cases none : seen = []
  · simp [h.unscored none, none, share]
  · simp [(h.selected none).2, none, share]

theorem Passed.visit (h : Passed observe current seen pass) (fresh : p ∉ seen) :
    Passed observe current (seen ++ [p]) (pass.visit observe p) := by
  rw [h.visit_eq fresh]
  constructor
  · simp [h.total]
  · intro o mem
    by_cases same : o = p
    · simp [same]
    · have mem : o ∈ seen := by simpa [same] using mem
      simpa [same] using h.credited o mem
  · intro o notMem
    have notMem : o ∉ seen ∧ o ≠ p := by simpa using notMem
    simpa [notMem.2] using h.frame o notMem.1
  · intro _
    by_cases takes : Overtakes observe current seen pass.selected p
    · simp [takes]
    · have before : seen ≠ [] := fun none => takes (.inl none)
      simpa [takes] using ⟨.inl (h.selected before).1, (h.selected before).2⟩
  · intro o mem
    by_cases takes : Overtakes observe current seen pass.selected p
    · simp only [takes, if_true]
      by_cases same : o = p
      · rw [same]
      · have mem : o ∈ seen := by simpa [same] using mem
        obtain rfl | less := takes
        · simp at mem
        · exact (h.best o mem).trans less.le
    · simp only [takes, if_false]
      by_cases same : o = p
      · rw [same]
        exact not_lt.mp fun less => takes (.inr less)
      · have mem : o ∈ seen := by simpa [same] using mem
        exact h.best o mem
  · simp

theorem Passed.run {more : List Provider} (h : Passed observe current seen pass)
    (distinct : (seen ++ more).Nodup) :
    Passed observe current (seen ++ more) (more.foldl (WeightedPass.visit observe) pass) := by
  induction more generalizing seen pass with
  | nil => simpa using h
  | cons p more ih =>
    have fresh : p ∉ seen := fun mem => List.disjoint_of_nodup_append distinct mem (by simp)
    rw [List.foldl_cons, List.append_cons]
    apply ih (h.visit fresh)
    simpa using distinct

/-- One choice among providers with distinct names: the first of the best scores wins and
pays for all. -/
structure Chosen (observe : Provider → ProviderObservation K) (providers : List Provider)
    (current : Provider → Option K) (result : Provider × (Provider → Option K)) : Prop where
  mem : result.1 ∈ providers
  best : ∀ p ∈ providers, score observe current p ≤ score observe current result.1
  credit_eq : ∀ p ∈ providers, credit result.2 p =
    turn providers.toFinset (share observe) (credit current) result.1 p
  frame : ∀ p ∉ providers, result.2 p = current p

theorem weightedRoundRobin_chosen (distinct : (first :: rest).Nodup) :
    Chosen observe (first :: rest) current (weightedRoundRobin observe current first rest) := by
  have passed : Passed observe current (first :: rest)
      ((first :: rest).foldl (WeightedPass.visit observe) ⟨0, first, none, current⟩) :=
    passed_start.run distinct
  unfold weightedRoundRobin
  generalize (first :: rest).foldl (WeightedPass.visit observe) ⟨0, first, none, current⟩ = pass
    at passed
  obtain ⟨mem, -⟩ := passed.selected (by simp)
  apply Chosen.mk mem passed.best
  · intro p hp
    have total := passed.total
    rw [← List.sum_toFinset _ distinct] at total
    have credited := passed.credited p hp
    by_cases same : p = pass.selected
    · subst same
      simp [credit, turn, credited, total, score]
    · simp [credit, turn, passed.credited p hp, same, score]
  · intro p hp
    have other : p ≠ pass.selected := fun same => hp (same ▸ mem)
    simpa [other] using passed.frame p hp

/-- The credits after so many choices, and who was chosen, the latest first. -/
def spins (observe : Provider → ProviderObservation K) (first : Provider) (rest : List Provider) :
    ℕ → (Provider → Option K) × List Provider
  | 0 => (fun _ => none, [])
  | k + 1 =>
    let (current, chosen) := spins observe first rest k
    let (selected, current) := weightedRoundRobin observe current first rest
    (current, selected :: chosen)

/-- The credits are those of a balanced book in which every choice has been paid for. -/
structure Settled [IsStrictOrderedRing K] (observe : Provider → ProviderObservation K)
    (providers : List Provider) (k : ℕ) (current : Provider → Option K) (chosen : List Provider) :
    Prop where
  balanced : Balanced providers.toFinset (share observe) (credit current)
  account : ∀ p ∈ providers, credit current p =
    k * share observe p - chosen.count p * ∑ q ∈ providers.toFinset, share observe q
  frame : ∀ p ∉ providers, current p = none

variable [IsStrictOrderedRing K]

theorem Settled.choice {providers chosen : List Provider} {k : ℕ}
    {result : Provider × (Provider → Option K)} (h : Settled observe providers k current chosen)
    (next : Chosen observe providers current result) :
    Settled observe providers (k + 1) result.2 (result.1 :: chosen) := by
  have turned := h.balanced.turn (List.mem_toFinset.mpr next.mem) (fun p _ => share_pos p)
    fun p hp => next.best p (List.mem_toFinset.mp hp)
  constructor
  · constructor
    · rw [← turned.sum_zero]
      exact Finset.sum_congr rfl fun p hp => next.credit_eq p (List.mem_toFinset.mp hp)
    · intro p hp
      rw [next.credit_eq p (List.mem_toFinset.mp hp)]
      exact turned.above p hp
  · intro p hp
    rw [next.credit_eq p hp, turn, h.account p hp, List.count_cons]
    by_cases same : p = result.1
    · subst same
      simp only [beq_self_eq_true, if_true]
      push_cast
      ring
    · simp only [same, beq_iff_eq, Ne.symm same, if_false]
      push_cast
      ring
  · intro p hp
    exact (next.frame p hp).trans (h.frame p hp)

theorem spins_settled (distinct : (first :: rest).Nodup) (k : ℕ) :
    Settled observe (first :: rest) k (spins observe first rest k).1
      (spins observe first rest k).2 := by
  induction k with
  | zero =>
    constructor
    · exact balanced_zero ⟨first, by simp⟩ fun p _ => share_pos p
    · intro p _
      simp [spins, credit]
    · intro p _
      rfl
  | succ k ih => exact ih.choice (weightedRoundRobin_chosen distinct)

/-- However often the choice is repeated, everyone gets their share, up to a deficit of less
than one choice for each of the others and a lead of less than one. -/
theorem choices_proportional (observe : Provider → ProviderObservation K) (first : Provider)
    (rest : List Provider) (distinct : (first :: rest).Nodup) (k : ℕ) :
    let spun := spins observe first rest k
    let total := ((first :: rest).map fun p => weight (observe p)).sum
    ((first :: rest).map (credit spun.1)).sum = 0 ∧
    (∀ p ∉ first :: rest, spun.1 p = none) ∧
    ∀ p ∈ first :: rest,
      k * weight (observe p) / total - ((first :: rest).length - 1) ≤ (spun.2.count p : K) ∧
      (spun.2.count p : K) < k * weight (observe p) / total + 1 := by
  intro spun total
  have settled : Settled observe (first :: rest) k spun.1 spun.2 := spins_settled distinct k
  have sum_eq (f : Provider → K) :
      ((first :: rest).map f).sum = ∑ p ∈ (first :: rest).toFinset, f p :=
    (List.sum_toFinset f distinct).symm
  have total_eq : total = ∑ p ∈ (first :: rest).toFinset, share observe p := sum_eq _
  refine ⟨?_, settled.frame, ?_⟩
  · rw [sum_eq]
    exact settled.balanced.sum_zero
  · intro p hp
    have bounds := settled.balanced.share (List.mem_toFinset.mpr hp) (fun p _ => share_pos p)
      (settled.account p hp)
    rw [List.toFinset_card_of_nodup distinct] at bounds
    rw [total_eq]
    exact bounds

theorem choices_proportional_of_three :
    let observe : Provider → ProviderObservation ℚ := fun p =>
      if p = "stripe" then ⟨1 / 2, 0, 0, 1 / 2⟩ else ⟨1, 0, 0, 0⟩
    let spun := spins observe "stripe" ["razorpay", "adyen"] 7
    let total := (["stripe", "razorpay", "adyen"].map fun p => weight (observe p)).sum
    (["stripe", "razorpay", "adyen"].map (credit spun.1)).sum = 0 ∧
    (∀ p ∉ ["stripe", "razorpay", "adyen"], spun.1 p = none) ∧
    ∀ p ∈ ["stripe", "razorpay", "adyen"],
      (7 : ℕ) * weight (observe p) / total - (["stripe", "razorpay", "adyen"].length - 1) ≤
        (spun.2.count p : ℚ) ∧
      (spun.2.count p : ℚ) < (7 : ℕ) * weight (observe p) / total + 1 :=
  choices_proportional _ "stripe" ["razorpay", "adyen"] (by decide) 7

end PySwitch.WeightedFairness
