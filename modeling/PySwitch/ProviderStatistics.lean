import Mathlib.Data.List.DropRight
import Mathlib.Data.List.GetD
import Mathlib.Data.Rat.Floor
import PySwitch.Router
import PySwitch.SortedBy

namespace PySwitch.ProviderStats

/-- The nearest rank of 95 percent of the latencies, counted from zero. -/
def p95Rank (count : ℕ) : ℕ := (⌈(count : ℚ) * (95 / 100)⌉ - 1).toNat

def p95LatencyMs (s : ProviderStats) : ℚ :=
  if s.recent = [] then 0
  else
    let latencies := (s.recent.map Prod.snd).insertionSort (· ≤ ·)
    latencies.getD (p95Rank latencies.length) 0

inductive Observed where
  | start
  | finish (success : Bool) (latencyMs : ℚ) (errorCode : Option String) (now : Seconds)

def Observed.apply (s : ProviderStats) : Observed → ProviderStats
  | .start => s.start
  | .finish success latencyMs errorCode now => s.finish success latencyMs errorCode now

/-- The statistics of a new provider after a history of calls. -/
def after (windowSize : ℕ) (history : List Observed) : ProviderStats :=
  history.foldl Observed.apply { windowSize }

/-- What a call adds to the window. -/
def Observed.outcome : Observed → Option (Bool × ℚ)
  | .start => none
  | .finish success latencyMs _ _ => some (success, max 0 latencyMs)

def Observed.timeout : Observed → Bool
  | .start => false
  | .finish success _ errorCode _ => !success && errorCode = some "PROVIDER_TIMEOUT"

def outcomes (history : List Observed) : List (Bool × ℚ) := history.filterMap Observed.outcome

/-- The statistics describe the history they come from. -/
structure Describes (size : ℕ) (history : List Observed) (s : ProviderStats) : Prop where
  windowSize : s.windowSize = size
  recent : s.recent = (outcomes history).rtake size
  totalRequests : s.totalRequests = (outcomes history).length
  successes : s.successes = (outcomes history).countP fun o => o.1
  failures : s.failures = (outcomes history).countP fun o => !o.1
  timeouts : s.timeouts = history.countP Observed.timeout

section Window

variable {s : ProviderStats} {n : ℕ} {history : List Observed}

theorem rtake_concat {α : Type} (items : List α) (n : ℕ) (x : α) :
    (items.rtake n ++ [x]).rtake n = (items ++ [x]).rtake n := by
  simp only [List.rtake, List.length_append, List.length_drop, List.length_singleton]
  rw [← List.drop_append_of_le_length (Nat.sub_le _ _), List.drop_drop]
  congr 1
  omega

theorem outcomes_concat (history : List Observed) (call : Observed) :
    outcomes (history ++ [call]) = outcomes history ++ call.outcome.toList := by
  simp only [outcomes, List.filterMap_append, List.filterMap_cons, List.filterMap_nil]
  cases call.outcome <;> rfl

/-- A call that ends adds its outcome to the window, which forgets the oldest ones. -/
theorem Describes.finish (h : Describes n history s) (success : Bool) (latencyMs : ℚ)
    (errorCode : Option String) (now : Seconds) :
    Describes n (history ++ [.finish success latencyMs errorCode now])
      (s.finish success latencyMs errorCode now) := by
  have window : (s.recent ++ [(success, max 0 latencyMs)]).drop
      ((s.recent ++ [(success, max 0 latencyMs)]).length - s.windowSize) =
      (outcomes history ++ [(success, max 0 latencyMs)]).rtake n := by
    rw [h.windowSize, h.recent]
    exact rtake_concat _ _ _
  have ended : outcomes (history ++ [.finish success latencyMs errorCode now]) =
      outcomes history ++ [(success, max 0 latencyMs)] := outcomes_concat _ _
  cases success with
  | true =>
    constructor
    · exact h.windowSize
    · rw [ended]
      exact window
    · simp [ProviderStats.finish, remember, ended, h.totalRequests]
    · simp [ProviderStats.finish, remember, ended, h.successes]
    · simp [ProviderStats.finish, remember, ended, h.failures]
    · simp [ProviderStats.finish, remember, Observed.timeout, h.timeouts]
  | false =>
    constructor
    · exact h.windowSize
    · rw [ended]
      exact window
    · simp [ProviderStats.finish, remember, ended, h.totalRequests]
    · simp [ProviderStats.finish, remember, ended, h.successes]
    · simp [ProviderStats.finish, remember, ended, h.failures]
    · by_cases timeout : errorCode = some "PROVIDER_TIMEOUT" <;>
        simp [ProviderStats.finish, remember, Observed.timeout, h.timeouts, timeout]

theorem Describes.start (h : Describes n history s) :
    Describes n (history ++ [.start]) s.start := by
  have same : outcomes (history ++ [.start]) = outcomes history := by
    rw [outcomes_concat]
    exact List.append_nil _
  constructor
  · exact h.windowSize
  · rw [same]
    exact h.recent
  · rw [same]
    exact h.totalRequests
  · rw [same]
    exact h.successes
  · rw [same]
    exact h.failures
  · rw [List.countP_append]
    exact h.timeouts

theorem after_describes (n : ℕ) (history : List Observed) :
    Describes n history (after n history) := by
  induction history using List.reverseRecOn with
  | nil => exact ⟨rfl, List.drop_nil.symm, rfl, rfl, rfl, rfl⟩
  | append_singleton history call ih =>
    rw [after, List.foldl_append, List.foldl_cons, List.foldl_nil]
    cases call with
    | start => exact ih.start
    | finish success latencyMs errorCode now => exact ih.finish success latencyMs errorCode now

/-- Every timeout is a failure. -/
theorem timeouts_le (history : List Observed) :
    history.countP Observed.timeout ≤ (outcomes history).countP fun o => !o.1 := by
  induction history with
  | nil => exact Nat.le_refl 0
  | cons call history ih =>
    cases call with
    | start =>
      have same : outcomes (.start :: history) = outcomes history := rfl
      rw [same, List.countP_cons_of_neg (by exact nofun)]
      exact ih
    | finish success latencyMs errorCode now =>
      have ended : outcomes (.finish success latencyMs errorCode now :: history) =
          (success, max 0 latencyMs) :: outcomes history := rfl
      rw [ended, List.countP_cons, List.countP_cons]
      apply Nat.add_le_add ih
      cases success with
      | true => simp [Observed.timeout]
      | false => simp; split <;> omega

end Window

section Rates

theorem successRate_mem (s : ProviderStats) : 0 ≤ s.successRate ∧ s.successRate ≤ 1 := by
  unfold successRate
  split
  · exact ⟨zero_le_one, le_refl 1⟩
  · have some : (s.recent.countP fun r => r.1 : ℚ) ≤ s.recent.length :=
      Nat.cast_le.mpr List.countP_le_length
    exact ⟨by positivity, div_le_one_of_le₀ some (Nat.cast_nonneg _)⟩

theorem recentFailureRate_mem (s : ProviderStats) :
    0 ≤ s.recentFailureRate ∧ s.recentFailureRate ≤ 1 := by
  obtain ⟨low, high⟩ := s.successRate_mem
  exact ⟨sub_nonneg.mpr high, sub_le_self 1 low⟩

theorem rates_sum (s : ProviderStats) : s.successRate + s.recentFailureRate = 1 :=
  add_sub_cancel _ _

end Rates

section Percentile

variable {s : ProviderStats}

theorem p95Rank_lt {count : ℕ} (positive : 0 < count) : p95Rank count < count := by
  have below : ⌈(count : ℚ) * (95 / 100)⌉ ≤ count := by
    rw [Int.ceil_le]
    push_cast
    linarith [(Nat.cast_nonneg count : (0 : ℚ) ≤ count)]
  unfold p95Rank
  omega

/-- More values than the rank are as many as 95 percent of all of them. -/
theorem p95Rank_lt_iff {count : ℕ} (positive : 0 < count) (few : ℕ) :
    p95Rank count < few ↔ 95 * count ≤ 100 * few := by
  have rank : p95Rank count < few ↔ ⌈(count : ℚ) * (95 / 100)⌉ ≤ few := by
    have above : 0 < ⌈(count : ℚ) * (95 / 100)⌉ := by
      rw [Int.ceil_pos]
      positivity
    unfold p95Rank
    omega
  rw [rank, Int.ceil_le]
  constructor
  · intro h
    have scaled : (95 * count : ℚ) ≤ 100 * few := by
      push_cast at h
      linarith
    exact_mod_cast scaled
  · intro h
    have scaled : (95 * count : ℚ) ≤ 100 * few := by exact_mod_cast h
    push_cast
    linarith

/-- The nearest-rank percentile of a window that is not empty. -/
theorem p95LatencyMs_isLeast (observed : s.recent ≠ []) :
    IsLeast {v | v ∈ s.recent.map Prod.snd ∧
      95 * s.recent.length ≤ 100 * (s.recent.map Prod.snd).countP (fun u => u ≤ v)}
      s.p95LatencyMs := by
  have positive : 0 < s.recent.length := List.length_pos_of_ne_nil observed
  have arranged : SortedBy.Arranges id (s.recent.map Prod.snd)
      ((s.recent.map Prod.snd).insertionSort (· ≤ ·)) :=
    ⟨List.perm_insertionSort _ _, List.pairwise_insertionSort _ _⟩
  have length : ((s.recent.map Prod.snd).insertionSort (· ≤ ·)).length = s.recent.length := by
    rw [List.length_insertionSort, List.length_map]
  have bound : p95Rank s.recent.length < ((s.recent.map Prod.snd).insertionSort (· ≤ ·)).length := by
    rw [length]
    exact p95Rank_lt positive
  have least := arranged.isLeast bound
  simp only [p95Rank_lt_iff positive] at least
  unfold p95LatencyMs
  rw [if_neg observed]
  dsimp only
  rw [length, List.getD_eq_getElem _ _ bound]
  exact least

end Percentile

/-- After any history the statistics are those of its last window. -/
theorem statistics_describe_window (n : ℕ) (history : List Observed) :
    (after n history).recent <:+ outcomes history ∧
    (after n history).recent.length = min n (outcomes history).length ∧
    (after n history).totalRequests = (outcomes history).length ∧
    (after n history).totalRequests = (after n history).successes + (after n history).failures ∧
    (after n history).timeouts ≤ (after n history).failures ∧
    (0 ≤ (after n history).successRate ∧ (after n history).successRate ≤ 1) ∧
    (0 ≤ (after n history).recentFailureRate ∧ (after n history).recentFailureRate ≤ 1) ∧
    (after n history).successRate + (after n history).recentFailureRate = 1 ∧
    ((after n history).recent ≠ [] →
      IsLeast {v | v ∈ (after n history).recent.map Prod.snd ∧
        95 * (after n history).recent.length ≤
          100 * ((after n history).recent.map Prod.snd).countP (fun u => u ≤ v)}
        (after n history).p95LatencyMs) := by
  have h := after_describes n history
  refine ⟨?_, ?_, h.totalRequests, ?_, ?_, successRate_mem _, recentFailureRate_mem _, rates_sum _,
    p95LatencyMs_isLeast⟩
  · rw [h.recent]
    exact List.drop_suffix _ _
  · rw [h.recent, List.rtake, List.length_drop]
    omega
  · rw [h.totalRequests, h.successes, h.failures]
    simpa using List.length_eq_countP_add_countP (fun o : Bool × ℚ => o.1)
  · rw [h.timeouts, h.failures]
    exact timeouts_le history

example : (after 3 [.finish true 10 none 0, .finish false 100 (some "PROVIDER_TIMEOUT") 1,
    .finish true 20 none 2, .finish true 40 none 3]).p95LatencyMs = 100 := by
  decide +kernel

end PySwitch.ProviderStats
