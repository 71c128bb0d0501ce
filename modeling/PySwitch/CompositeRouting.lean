import PySwitch.Router

namespace PySwitch.CompositeRouting

variable {o better worse : ProviderObservation ℝ} {weights : CompositeWeights}

structure InRange (o : ProviderObservation ℝ) : Prop where
  success : 0 ≤ o.successRate ∧ o.successRate ≤ 1
  latency : 0 ≤ o.averageLatencyMs
  inflight : 0 ≤ o.inflight
  recentFailure : 0 ≤ o.recentFailureRate ∧ o.recentFailureRate ≤ 1

structure NoWorse (better worse : ProviderObservation ℝ) : Prop where
  success : worse.successRate ≤ better.successRate
  latency : better.averageLatencyMs ≤ worse.averageLatencyMs
  inflight : better.inflight ≤ worse.inflight
  recentFailure : better.recentFailureRate ≤ worse.recentFailureRate

/-- Better in something that has a weight. -/
def StrictlyBetter (weights : CompositeWeights) (better worse : ProviderObservation ℝ) : Prop :=
  (0 < weights.success ∧ worse.successRate < better.successRate) ∨
  (0 < weights.latency ∧ better.averageLatencyMs < worse.averageLatencyMs) ∨
  (0 < weights.load ∧ better.inflight < worse.inflight) ∨
  (0 < weights.recentFailure ∧ better.recentFailureRate < worse.recentFailureRate)

theorem weights_nonneg (weights : CompositeWeights) : 0 ≤ weights.success ∧ 0 ≤ weights.latency ∧
    0 ≤ weights.load ∧ 0 ≤ weights.recentFailure := by
  have bounded := weights.bounded
  simp only [List.mem_cons, List.not_mem_nil, or_false, forall_eq_or_imp, forall_eq] at bounded
  exact ⟨bounded.1.1, bounded.2.1.1, bounded.2.2.1.1, bounded.2.2.2.1⟩

section Factor

variable {x y weight : ℝ} (nonneg : 0 ≤ x)

include nonneg

theorem factor_pos : 0 < factor x weight := Real.rpow_pos_of_pos (by linarith) _

theorem factor_le (le : x ≤ y) (h : 0 ≤ weight) : factor x weight ≤ factor y weight :=
  Real.rpow_le_rpow (by linarith) (by linarith) h

theorem factor_lt (lt : x < y) (h : 0 < weight) : factor x weight < factor y weight :=
  Real.rpow_lt_rpow (by linarith) (by linarith) h

end Factor

theorem compositeScore_eq :
    compositeScore o weights = o.successRate ^ weights.success / burden weights o := by
  rw [compositeScore, burden, factor, factor, factor, div_div, div_div, ← mul_assoc]

/-- Inflight and latency as they stand in the score. -/
theorem InRange.scaled (h : InRange o) : 0 ≤ o.averageLatencyMs / 1000 ∧ (0 : ℝ) ≤ o.inflight :=
  ⟨div_nonneg h.latency (by norm_num), by exact_mod_cast h.inflight⟩

theorem burden_pos (h : InRange o) : 0 < burden weights o :=
  mul_pos (mul_pos (factor_pos h.scaled.1) (factor_pos h.scaled.2)) (factor_pos h.recentFailure.1)

theorem score_nonneg (h : InRange o) : 0 ≤ compositeScore o weights := by
  rw [compositeScore_eq]
  exact div_nonneg (Real.rpow_nonneg h.success.1 _) (burden_pos h).le

/-- Only the success rate can make a score vanish. -/
theorem score_eq_zero (h : InRange o) :
    compositeScore o weights = 0 ↔ o.successRate = 0 ∧ 0 < weights.success := by
  have nonneg := (weights_nonneg weights).1
  rw [compositeScore_eq, div_eq_zero_iff, or_iff_left (burden_pos h).ne',
    Real.rpow_eq_zero_iff_of_nonneg h.success.1]
  apply and_congr_right
  intro _
  exact ⟨fun h => lt_of_le_of_ne nonneg h.symm, fun h => h.ne'⟩

section Dominance

variable (h : InRange better) (no : NoWorse better worse)

include h no

theorem latency_le : factor (better.averageLatencyMs / 1000) weights.latency ≤
    factor (worse.averageLatencyMs / 1000) weights.latency :=
  factor_le h.scaled.1 (by linarith [no.latency]) (weights_nonneg _).2.1

theorem load_le : factor better.inflight weights.load ≤ factor worse.inflight weights.load :=
  factor_le h.scaled.2 (by exact_mod_cast no.inflight) (weights_nonneg _).2.2.1

theorem failure_le : factor better.recentFailureRate weights.recentFailure ≤
    factor worse.recentFailureRate weights.recentFailure :=
  factor_le h.recentFailure.1 no.recentFailure (weights_nonneg _).2.2.2

theorem burden_le : burden weights better ≤ burden weights worse := by
  have low : 0 < factor (better.averageLatencyMs / 1000) weights.latency := factor_pos h.scaled.1
  have up := low.trans_le (latency_le h no)
  have loads : factor (better.averageLatencyMs / 1000) weights.latency *
      factor better.inflight weights.load ≤
      factor (worse.averageLatencyMs / 1000) weights.latency * factor worse.inflight weights.load :=
    mul_le_mul (latency_le h no) (load_le h no) (factor_pos h.scaled.2).le up.le
  have mid : 0 < factor better.inflight weights.load := factor_pos h.scaled.2
  have pos := mul_pos low mid
  exact mul_le_mul loads (failure_le h no) (factor_pos h.recentFailure.1).le (pos.le.trans loads)

theorem burden_lt (strict : (0 < weights.latency ∧ better.averageLatencyMs < worse.averageLatencyMs) ∨
    (0 < weights.load ∧ better.inflight < worse.inflight) ∨
    (0 < weights.recentFailure ∧ better.recentFailureRate < worse.recentFailureRate)) :
    burden weights better < burden weights worse := by
  have low : 0 < factor (better.averageLatencyMs / 1000) weights.latency := factor_pos h.scaled.1
  have mid : 0 < factor better.inflight weights.load := factor_pos h.scaled.2
  have high : 0 < factor better.recentFailureRate weights.recentFailure :=
    factor_pos h.recentFailure.1
  have up := low.trans_le (latency_le h no)
  have both := mul_pos up (mid.trans_le (load_le h no))
  obtain ⟨weighs, less⟩ | ⟨weighs, less⟩ | ⟨weighs, less⟩ := strict
  · have less := factor_lt h.scaled.1 (div_lt_div_of_pos_right less (by norm_num)) weighs
    exact mul_lt_mul (mul_lt_mul less (load_le h no) mid up.le) (failure_le h no) high both.le
  · have less : (better.inflight : ℝ) < worse.inflight := by exact_mod_cast less
    have less := factor_lt h.scaled.2 less weighs
    exact mul_lt_mul (mul_lt_mul' (latency_le h no) less mid.le up) (failure_le h no) high both.le
  · have less := factor_lt h.recentFailure.1 less weighs
    have loads := mul_le_mul (latency_le h no) (load_le h no) mid.le up.le
    exact mul_lt_mul' loads less high.le both

/-- A candidate that is no worse in anything and better in something with a weight has the
higher score, unless both scores vanish. -/
theorem score_lt (range : InRange worse) (strict : StrictlyBetter weights better worse)
    (scores : compositeScore worse weights ≠ 0) :
    compositeScore worse weights < compositeScore better weights := by
  have pos := lt_of_le_of_ne (score_nonneg range) scores.symm
  have burdened : 0 < burden weights better := burden_pos h
  rw [compositeScore_eq] at pos ⊢
  rw [compositeScore_eq]
  have top : 0 < worse.successRate ^ weights.success :=
    (div_pos_iff_of_pos_right (burden_pos range)).mp pos
  have success := Real.rpow_le_rpow range.success.1 no.success (weights_nonneg weights).1
  obtain ⟨weighs, less⟩ | strict := strict
  · have less := Real.rpow_lt_rpow range.success.1 less weighs
    exact div_lt_div₀ less (burden_le h no) (top.trans less).le burdened
  · exact div_lt_div₀' success (burden_lt h no strict) (top.trans_le success) burdened

end Dominance

theorem selectComposite_ok {candidates : List RoutingCandidate} {selected : RoutingCandidate} :
    selectComposite candidates weights = .ok selected ↔
      selected ∈ candidates.argmax fun c => compositeScore c.observation weights := by
  unfold selectComposite
  split
  · rename_i c h
    rw [h]
    simp
  · rename_i h
    rw [h]
    simp

/-- With equal scores all over, the first candidate is taken. -/
theorem head_of_all_zero {candidates : List RoutingCandidate} {selected : RoutingCandidate}
    (mem : selected ∈ candidates.argmax fun c => compositeScore c.observation weights)
    (zero : ∀ c ∈ candidates, compositeScore c.observation weights = 0) :
    candidates.head? = some selected := by
  classical
  have inside := List.argmax_mem mem
  cases candidates with
  | nil => simp at inside
  | cons first rest =>
    have same : compositeScore selected.observation weights ≤
        compositeScore first.observation weights := by
      rw [zero selected inside, zero first (by simp)]
    have index := List.index_of_argmax mem (by simp) same
    rw [List.idxOf_cons_self] at index
    by_cases is_first : first = selected
    · simp [is_first]
    · rw [List.idxOf_cons_ne _ is_first] at index
      omega

theorem dominated_selected (weights : CompositeWeights) (candidates : List RoutingCandidate)
    (range : ∀ c ∈ candidates, InRange c.observation) (dominating dominated : RoutingCandidate)
    (mem : dominating ∈ candidates) (no : NoWorse dominating.observation dominated.observation)
    (strict : StrictlyBetter weights dominating.observation dominated.observation)
    (selected : selectComposite candidates weights = .ok dominated) :
    0 < weights.success ∧ (∀ c ∈ candidates, c.observation.successRate = 0) ∧
      candidates.head? = some dominated := by
  have best := selectComposite_ok.mp selected
  have inside := List.argmax_mem best
  have vanishes : compositeScore dominated.observation weights = 0 := by
    by_contra scores
    have less := score_lt (range _ mem) no (range _ inside) strict scores
    exact absurd (List.le_of_mem_argmax mem best) (not_le.mpr less)
  have zero : ∀ c ∈ candidates, compositeScore c.observation weights = 0 := fun c hc =>
    le_antisymm ((List.le_of_mem_argmax hc best).trans vanishes.le) (score_nonneg (range c hc))
  have weighs := ((score_eq_zero (range _ inside)).mp vanishes).2
  exact ⟨weighs, fun c hc => ((score_eq_zero (range c hc)).mp (zero c hc)).1,
    head_of_all_zero best zero⟩

def candidate (position : ℕ) (name : Provider) (successRate latency : ℝ) : RoutingCandidate :=
  ⟨position, name, ⟨successRate, latency, 0, 1 - successRate⟩⟩

theorem candidate_inRange {position : ℕ} {name : Provider} {successRate latency : ℝ}
    (success : 0 ≤ successRate ∧ successRate ≤ 1) (nonneg : 0 ≤ latency) :
    InRange (candidate position name successRate latency).observation :=
  ⟨success, nonneg, le_rfl, sub_nonneg.mpr success.2, sub_le_self 1 success.1⟩

/-- Among providers that never succeed the slower one is taken if it comes first. -/
theorem slower_selected :
    let slow := candidate 0 "stripe" 0 100
    let fast := candidate 1 "adyen" 0 0
    (∀ c ∈ [slow, fast], InRange c.observation) ∧
    NoWorse fast.observation slow.observation ∧
    StrictlyBetter .default fast.observation slow.observation ∧
    selectComposite [slow, fast] .default = .ok slow := by
  intro slow fast
  have slowRange : InRange slow.observation := candidate_inRange (by norm_num) (by norm_num)
  have fastRange : InRange fast.observation := candidate_inRange (by norm_num) (by norm_num)
  have weighs : 0 < CompositeWeights.default.success := by norm_num [CompositeWeights.default]
  refine ⟨by simp [slowRange, fastRange], ?_, ?_, ?_⟩
  · constructor <;> norm_num [slow, fast, candidate]
  · exact .inr (.inl (by norm_num [slow, fast, candidate, CompositeWeights.default]))
  · have slowZero : compositeScore slow.observation .default = 0 :=
      (score_eq_zero slowRange).mpr ⟨rfl, weighs⟩
    have fastZero : compositeScore fast.observation .default = 0 :=
      (score_eq_zero fastRange).mpr ⟨rfl, weighs⟩
    rw [selectComposite_ok, List.argmax_cons, List.argmax_singleton]
    simp [slowZero, fastZero]

theorem dominated_can_be_selected :
    ¬∀ (weights : CompositeWeights) (candidates : List RoutingCandidate),
      (∀ c ∈ candidates, InRange c.observation) →
      ∀ dominating ∈ candidates, ∀ dominated ∈ candidates,
        NoWorse dominating.observation dominated.observation →
        StrictlyBetter weights dominating.observation dominated.observation →
        selectComposite candidates weights ≠ .ok dominated := by
  intro claim
  obtain ⟨range, no, strict, selected⟩ := slower_selected
  exact claim .default _ range _ (by simp) _ (by simp) no strict selected

theorem dominated_selected_slower :
    let slow := candidate 0 "stripe" 0 100
    let fast := candidate 1 "adyen" 0 0
    0 < CompositeWeights.default.success ∧
      (∀ c ∈ [slow, fast], c.observation.successRate = 0) ∧ [slow, fast].head? = some slow := by
  obtain ⟨range, no, strict, selected⟩ := slower_selected
  exact dominated_selected .default _ range _ _ (by simp) no strict selected

end PySwitch.CompositeRouting
