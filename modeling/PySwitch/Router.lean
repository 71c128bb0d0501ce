import Mathlib.Analysis.SpecialFunctions.Pow.Real
import PySwitch.Routing
import PySwitch.SmoothRoundRobin

namespace PySwitch

inductive RoutingStrategy where
  | roundRobin
  | weightedRoundRobin
  | lowestLatency
  | highestSuccessRate
  | composite
  deriving DecidableEq, Repr

/-- What the strategies see of one provider. -/
structure ProviderObservation (K : Type) [Zero K] [One K] where
  successRate : K := 1
  averageLatencyMs : K := 0
  inflight : ℤ := 0
  recentFailureRate : K := 0

namespace ProviderStats

variable (s : ProviderStats)

def successRate : ℚ :=
  if s.recent = [] then 1 else s.recent.countP (fun r => r.1) / s.recent.length

def recentFailureRate : ℚ := 1 - s.successRate

def averageLatencyMs : ℚ :=
  if s.recent = [] then 0 else (s.recent.map Prod.snd).sum / s.recent.length

def snapshot : ProviderObservation ℚ where
  successRate := s.successRate
  averageLatencyMs := s.averageLatencyMs
  inflight := s.inflight
  recentFailureRate := s.recentFailureRate

end ProviderStats

section Weighted

variable {K : Type} [Field K] [LinearOrder K]

def weight (o : ProviderObservation K) : K := max 0.05 o.successRate

/-- The variables of one pass over the providers. No score yet is less than any score. -/
structure WeightedPass (K : Type) where
  total : K
  selected : Provider
  selectedScore : Option K
  current : Provider → Option K

def WeightedPass.visit (observe : Provider → ProviderObservation K) (pass : WeightedPass K)
    (provider : Provider) : WeightedPass K :=
  let weight := weight (observe provider)
  let score := (pass.current provider).getD 0 + weight
  let better := match pass.selectedScore with
    | none => true
    | some selectedScore => decide (selectedScore < score)
  { total := pass.total + weight
    selected := if better then provider else pass.selected
    selectedScore := if better then some score else pass.selectedScore
    current := Function.update pass.current provider (some score) }

/-- Choose from `first` and the rest with the credits so far, and update the credits. -/
def weightedRoundRobin (observe : Provider → ProviderObservation K)
    (current : Provider → Option K) (first : Provider) (rest : List Provider) :
    Provider × (Provider → Option K) :=
  let pass := (first :: rest).foldl (WeightedPass.visit observe) ⟨0, first, none, current⟩
  (pass.selected, Function.update pass.current pass.selected
    (some ((pass.current pass.selected).getD 0 - pass.total)))

end Weighted

structure RoutingCandidate where
  position : ℕ
  name : Provider
  observation : ProviderObservation ℝ

def maxCompositeWeight : ℝ := 5

/-- Exponents of the composite score, all of them in bounds. -/
structure CompositeWeights where
  success : ℝ
  latency : ℝ
  load : ℝ
  recentFailure : ℝ
  bounded : ∀ named ∈ [("success", success), ("latency", latency), ("load", load),
    ("recent_failure", recentFailure)], 0 ≤ named.2 ∧ named.2 ≤ maxCompositeWeight

open Classical in
/-- The first weight out of bounds is named in the error. -/
noncomputable def CompositeWeights.make (success latency load recentFailure : ℝ) :
    Except String CompositeWeights :=
  let named := [("success", success), ("latency", latency), ("load", load),
    ("recent_failure", recentFailure)]
  match h : named.find? fun n => ¬(0 ≤ n.2 ∧ n.2 ≤ maxCompositeWeight) with
  | some n => .error ("composite " ++ n.1 ++ " weight must be between 0 and 5.0")
  | none => .ok ⟨success, latency, load, recentFailure, fun n mem => by
      simpa using List.find?_eq_none.mp h n mem⟩

noncomputable def CompositeWeights.default : CompositeWeights where
  success := 1
  latency := 1
  load := 1
  recentFailure := 0
  bounded := by norm_num [maxCompositeWeight]

noncomputable def compositeScore (o : ProviderObservation ℝ) (weights : CompositeWeights) : ℝ :=
  o.successRate ^ weights.success
    / (1 + o.averageLatencyMs / 1000) ^ weights.latency
    / (1 + o.inflight) ^ weights.load
    / (1 + o.recentFailureRate) ^ weights.recentFailure

namespace CompositeRouting

noncomputable def factor (x weight : ℝ) : ℝ := (1 + x) ^ weight

/-- What the success rate is divided by. -/
noncomputable def burden (weights : CompositeWeights) (o : ProviderObservation ℝ) : ℝ :=
  factor (o.averageLatencyMs / 1000) weights.latency * factor o.inflight weights.load *
    factor o.recentFailureRate weights.recentFailure

end CompositeRouting

/-- The first of the candidates with the highest score. -/
noncomputable def selectComposite (candidates : List RoutingCandidate) (weights : CompositeWeights) :
    Except Exn RoutingCandidate :=
  match candidates.argmax fun candidate => compositeScore candidate.observation weights with
  | some candidate => .ok candidate
  | none => .error (.lookup "No healthy payment provider is available")

/-- The settings and the memory of a router; the observations are kept beside it. -/
structure ProviderRouter where
  strategy : RoutingStrategy := .roundRobin
  next : ℕ := 0
  weightedCurrent : Provider → Option ℝ := fun _ => none
  compositeWeights : CompositeWeights := .default

namespace ProviderRouter

noncomputable def observe (stats : Provider → ProviderStats) (provider : Provider) :
    ProviderObservation ℝ where
  successRate := (stats provider).successRate
  averageLatencyMs := (stats provider).averageLatencyMs
  inflight := (stats provider).inflight
  recentFailureRate := (stats provider).recentFailureRate

/-- A provider that was not called yet comes after all others. -/
def latencyKey (stats : Provider → ProviderStats) (providers : List Provider)
    (provider : Provider) : WithTop ℚ ×ₗ ℚ ×ₗ ℕ :=
  let s := stats provider
  toLex (if s.recent = [] then ⊤ else (s.averageLatencyMs : WithTop ℚ),
    toLex (-s.successRate, providers.idxOf provider))

def successKey (stats : Provider → ProviderStats) (providers : List Provider)
    (provider : Provider) : ℚ ×ₗ ℚ ×ₗ ℤ ×ₗ ℤ :=
  let s := stats provider
  toLex (s.successRate, toLex (-s.averageLatencyMs,
    toLex (-(s.inflight : ℤ), -(providers.idxOf provider : ℤ))))

noncomputable def choose (stats : Provider → ProviderStats) (r : ProviderRouter) :
    List Provider → Except Exn (Provider × ProviderRouter)
  | [] => .error (.lookup "No healthy payment provider is available")
  | first :: rest =>
    let providers := first :: rest
    match r.strategy with
    | .roundRobin =>
      .ok (providers.getD (r.next % providers.length) first, { r with next := r.next + 1 })
    | .weightedRoundRobin =>
      let (selected, current) := weightedRoundRobin (observe stats) r.weightedCurrent first rest
      .ok (selected, { r with weightedCurrent := current })
    | .lowestLatency => .ok ((providers.argmin (latencyKey stats providers)).getD first, r)
    | .highestSuccessRate => .ok ((providers.argmax (successKey stats providers)).getD first, r)
    | .composite => do
      let candidates := providers.mapIdx fun index provider =>
        (⟨index, provider, observe stats provider⟩ : RoutingCandidate)
      let selected ← selectComposite candidates r.compositeWeights
      pure (providers.getD selected.position first, r)

theorem visit_selected {K : Type} [Field K] [LinearOrder K]
    (observe : Provider → ProviderObservation K) (pass : WeightedPass K) (p : Provider) :
    (pass.visit observe p).selected = p ∨ (pass.visit observe p).selected = pass.selected := by
  cases best : pass.selectedScore with
  | none => exact .inl (by simp [WeightedPass.visit, best])
  | some selectedScore =>
    by_cases better : selectedScore < (pass.current p).getD 0 + weight (observe p)
    · exact .inl (by simp [WeightedPass.visit, best, better])
    · exact .inr (by simp [WeightedPass.visit, best, better])

theorem selected_mem {K : Type} [Field K] [LinearOrder K]
    (observe : Provider → ProviderObservation K) (pass : WeightedPass K)
    (providers : List Provider) :
    (providers.foldl (WeightedPass.visit observe) pass).selected ∈ pass.selected :: providers := by
  induction providers generalizing pass with
  | nil => simp
  | cons p providers ih =>
    rw [List.foldl_cons]
    obtain same | mem := List.mem_cons.mp (ih (pass.visit observe p))
    · rw [same]
      obtain taken | kept := visit_selected observe pass p
      · simp [taken]
      · simp [kept]
    · exact List.mem_cons_of_mem _ (List.mem_cons_of_mem _ mem)

theorem weightedRoundRobin_mem {K : Type} [Field K] [LinearOrder K]
    (observe : Provider → ProviderObservation K) (current : Provider → Option K)
    (first : Provider) (rest : List Provider) :
    (weightedRoundRobin observe current first rest).1 ∈ first :: rest := by
  unfold weightedRoundRobin
  obtain same | mem := List.mem_cons.mp (selected_mem observe ⟨0, first, none, current⟩ (first :: rest))
  · exact List.mem_cons.mpr (.inl same)
  · exact mem

theorem getD_mem {first : Provider} {rest : List Provider} (i : ℕ) :
    (first :: rest).getD i first ∈ first :: rest := by
  rw [List.getD_eq_getElem?_getD]
  cases found : (first :: rest)[i]? with
  | none => simp
  | some p => exact List.mem_of_getElem? found

/-- Whatever the strategy, the choice falls on one of the providers at hand. -/
theorem choose_mem {stats : Provider → ProviderStats} {r r' : ProviderRouter}
    {providers : List Provider} {p : Provider}
    (h : r.choose stats providers = .ok (p, r')) : p ∈ providers := by
  cases providers with
  | nil => simp [choose] at h
  | cons first rest =>
    cases strategy : r.strategy with
    | roundRobin =>
      simp only [choose, strategy, Except.ok.injEq, Prod.mk.injEq] at h
      rw [← h.1]
      exact getD_mem _
    | weightedRoundRobin =>
      simp only [choose, strategy, Except.ok.injEq, Prod.mk.injEq] at h
      rw [← h.1]
      exact weightedRoundRobin_mem _ _ _ _
    | lowestLatency =>
      simp only [choose, strategy, Except.ok.injEq, Prod.mk.injEq] at h
      rw [← h.1]
      cases least : (first :: rest).argmin (latencyKey stats (first :: rest)) with
      | none => simp
      | some p => exact List.argmin_mem least
    | highestSuccessRate =>
      simp only [choose, strategy, Except.ok.injEq, Prod.mk.injEq] at h
      rw [← h.1]
      cases most : (first :: rest).argmax (successKey stats (first :: rest)) with
      | none => simp
      | some p => exact List.argmax_mem most
    | composite =>
      simp only [choose, strategy] at h
      generalize selectComposite _ _ = selection at h
      cases selection with
      | error e => cases h
      | ok selected =>
        cases h
        exact getD_mem _

end ProviderRouter

end PySwitch
