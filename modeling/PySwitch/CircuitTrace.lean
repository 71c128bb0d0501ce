import PySwitch.Reliability
import Mathlib.Data.List.Induction

namespace PySwitch.CircuitTrace

inductive Operation where
  | allowRequest
  | recordSuccess
  | recordFailure
  deriving DecidableEq

/-- A call of the breaker and the clock reading at that call. -/
abbrev Call : Type := Operation × Seconds

def perform (c : CircuitBreaker) : Call → Bool × CircuitBreaker
  | (.allowRequest, now) => c.allowRequest now
  | (.recordSuccess, _) => (false, c.recordSuccess)
  | (.recordFailure, now) => (false, c.recordFailure now)

def after (c : CircuitBreaker) (calls : List Call) : CircuitBreaker :=
  calls.foldl (fun c call => (perform c call).2) c

/-- The number of permits granted over a sequence of calls. -/
def grants (c : CircuitBreaker) : List Call → ℕ
  | [] => 0
  | call :: calls => (perform c call).1.toNat + grants (perform c call).2 calls

def failuresSinceSuccess (calls : List Call) : ℕ :=
  calls.foldl (fun n call => match call.1 with
    | .allowRequest => n
    | .recordSuccess => 0
    | .recordFailure => n + 1) 0

def lastFailure (calls : List Call) : Option Seconds :=
  calls.foldl (fun t call => if call.1 = .recordFailure then some call.2 else t) none

def NonDecreasing (calls : List Call) : Prop := calls.Pairwise fun a b => a.2 ≤ b.2

/-- What the breaker's fields say about the calls made so far. -/
structure TraceInv (c₀ c : CircuitBreaker) (calls : List Call) : Prop where
  threshold : c.failureThreshold = c₀.failureThreshold
  cooldown : c.cooldownSeconds = c₀.cooldownSeconds
  probeLimit : c.halfOpenProbeLimit = c₀.halfOpenProbeLimit
  failures : c.consecutiveFailures = failuresSinceSuccess calls
  closed : c.state = .closed ↔ c.consecutiveFailures < c.failureThreshold
  opened : c.state ≠ .closed → lastFailure calls = some c.openedAt
  cooled : c.state = .halfOpen → ∃ call ∈ calls, c.cooldownSeconds ≤ call.2 - c.openedAt

theorem traceInv_fresh {c : CircuitBreaker} (fresh : c.Fresh) : TraceInv c c [] where
  threshold := rfl
  cooldown := rfl
  probeLimit := rfl
  failures := fresh.2.1
  closed := by simpa [fresh.1, fresh.2.1] using c.threshold_pos
  opened := fun h => absurd fresh.1 h
  cooled := by simp [fresh.1]

theorem traceInv_allowRequest {c₀ c : CircuitBreaker} {calls : List Call} (now : Seconds)
    (h : TraceInv c₀ c calls) :
    TraceInv c₀ (c.allowRequest now).2 (calls ++ [(.allowRequest, now)]) := by
  have hf : failuresSinceSuccess (calls ++ [(.allowRequest, now)]) = failuresSinceSuccess calls := by
    simp [failuresSinceSuccess]
  have hl : lastFailure (calls ++ [(.allowRequest, now)]) = lastFailure calls := by
    simp [lastFailure]
  have kept : TraceInv c₀ c (calls ++ [(.allowRequest, now)]) :=
    { h with
      failures := by rw [hf, h.failures]
      opened := fun hs => by rw [hl, h.opened hs]
      cooled := fun hs => by
        obtain ⟨call, hm, hc⟩ := h.cooled hs
        exact ⟨call, List.mem_append_left _ hm, hc⟩ }
  cases hg : (c.allowRequest now).1 with
  | false => rw [(CircuitBreaker.allowRequest_refused hg).1]; exact kept
  | true =>
    obtain ⟨-, he⟩ | ⟨hs, hc, he⟩ | ⟨hs, -, he⟩ := CircuitBreaker.allowRequest_granted hg
    · rw [he]; exact kept
    · have hn : ¬ c.consecutiveFailures < c.failureThreshold := fun hlt => by
        simp [h.closed.mpr hlt] at hs
      rw [he]
      exact
        { kept with
          closed := by simpa using hn
          opened := fun _ => kept.opened (by simp [hs])
          cooled := fun _ => ⟨(.allowRequest, now), by simp, hc⟩ }
    · rw [he]
      exact
        { kept with }

theorem traceInv_recordSuccess {c₀ c : CircuitBreaker} {calls : List Call} (now : Seconds)
    (h : TraceInv c₀ c calls) :
    TraceInv c₀ c.recordSuccess (calls ++ [(.recordSuccess, now)]) where
  threshold := h.threshold
  cooldown := h.cooldown
  probeLimit := h.probeLimit
  failures := by simp [failuresSinceSuccess, CircuitBreaker.recordSuccess]
  closed := by simpa [CircuitBreaker.recordSuccess] using c.threshold_pos
  opened := fun hs => absurd rfl hs
  cooled := by simp [CircuitBreaker.recordSuccess]

theorem traceInv_recordFailure {c₀ c : CircuitBreaker} {calls : List Call} (now : Seconds)
    (h : TraceInv c₀ c calls) :
    TraceInv c₀ (c.recordFailure now) (calls ++ [(.recordFailure, now)]) := by
  have hf : failuresSinceSuccess (calls ++ [(.recordFailure, now)]) =
      failuresSinceSuccess calls + 1 := by
    simp [failuresSinceSuccess]
  have hl : lastFailure (calls ++ [(.recordFailure, now)]) = some now := by
    simp [lastFailure]
  unfold CircuitBreaker.recordFailure
  by_cases hs : c.state = .halfOpen ∨ c.consecutiveFailures + 1 ≥ c.failureThreshold
  · -- a half-open breaker is already at its threshold, so the state may stay open
    have hn : ¬ c.consecutiveFailures + 1 < c.failureThreshold := by
      obtain hs | hs := hs
      · have := mt h.closed.mpr (by simp [hs])
        omega
      · omega
    simp only [if_pos hs]
    exact ⟨h.threshold, h.cooldown, h.probeLimit, by rw [hf, ← h.failures], by simpa using hn,
      fun _ => hl, by simp⟩
  · have hlt : c.consecutiveFailures + 1 < c.failureThreshold := by
      simp only [not_or, not_le, ge_iff_le] at hs
      exact hs.2
    have hc : c.state = .closed := h.closed.mpr (by omega)
    simp only [if_neg hs]
    exact ⟨h.threshold, h.cooldown, h.probeLimit, by rw [hf, ← h.failures], by simp [hc, hlt],
      fun hs => absurd hc hs, by simp [hc]⟩

theorem traceInv_after {c : CircuitBreaker} (fresh : c.Fresh) (calls : List Call) :
    TraceInv c (after c calls) calls := by
  induction calls using List.reverseRecOn with
  | nil => exact traceInv_fresh fresh
  | append_singleton calls call ih =>
    have h : after c (calls ++ [call]) = (perform (after c calls) call).2 := by simp [after]
    rw [h]
    obtain ⟨op, now⟩ := call
    cases op with
    | allowRequest => exact traceInv_allowRequest now ih
    | recordSuccess => exact traceInv_recordSuccess now ih
    | recordFailure => exact traceInv_recordFailure now ih

/-- Between outcomes a half-open breaker grants what is left of its probe limit, and an open
one the whole limit at most. -/
theorem grants_le {c : CircuitBreaker} (hs : c.state ≠ .closed) {calls : List Call}
    (asks : ∀ call ∈ calls, call.1 = .allowRequest) :
    grants c calls ≤ c.halfOpenProbeLimit - (if c.state = .halfOpen then c.probes else 0) := by
  induction calls generalizing c with
  | nil => simp [grants]
  | cons call calls ih =>
    obtain ⟨op, now⟩ := call
    have rest {c : CircuitBreaker} (hs : c.state ≠ .closed) :=
      ih hs (fun call hm => asks call (List.mem_cons_of_mem (op, now) hm))
    obtain rfl : op = .allowRequest := asks (op, now) (by simp)
    simp only [grants, perform]
    cases hg : (c.allowRequest now).1 with
    | false =>
      rw [(CircuitBreaker.allowRequest_refused hg).1]
      simpa using rest hs
    | true =>
      obtain ⟨hc, -⟩ | ⟨ho, -, he⟩ | ⟨hh, hp, he⟩ := CircuitBreaker.allowRequest_granted hg
      · exact absurd hc hs
      · have hr := rest (c := { c with state := .halfOpen, probes := 1 }) (by simp)
        have hl := c.probeLimit_pos
        rw [he]
        simp only [if_true, ho, reduceCtorEq, if_false, Bool.toNat_true] at hr ⊢
        omega
      · have hr := rest (c := { c with probes := c.probes + 1 }) (by simp [hh])
        rw [he]
        simp only [if_true, hh, Bool.toNat_true] at hr ⊢
        omega

/-- A permit granted at or above the threshold waits for the cooldown. -/
theorem granted_after_cooldown {c : CircuitBreaker} (fresh : c.Fresh) {calls : List Call}
    {now : Seconds} (sorted : NonDecreasing (calls ++ [(.allowRequest, now)]))
    (granted : ((after c calls).allowRequest now).1 = true)
    (above : c.failureThreshold ≤ failuresSinceSuccess calls) :
    ∃ t, lastFailure calls = some t ∧ t + c.cooldownSeconds ≤ now := by
  have h := traceInv_after fresh calls
  have hs : (after c calls).state ≠ .closed := fun hc => by
    have := h.closed.mp hc
    rw [h.failures, h.threshold] at this
    omega
  refine ⟨_, h.opened hs, ?_⟩
  rw [← h.cooldown]
  obtain ⟨hc, -⟩ | ⟨-, hc, -⟩ | ⟨hh, -, -⟩ := CircuitBreaker.allowRequest_granted granted
  · exact absurd hc hs
  · linarith
  · obtain ⟨call, hm, hc⟩ := h.cooled hh
    have : call.2 ≤ now := 
      (List.pairwise_append.mp sorted).2.2 call hm (.allowRequest, now) (by simp)
    linarith

/-- The law of every sequence of calls at a non-decreasing clock: the failure count, when the
circuit is closed, when permits are granted above the threshold, and how many between outcomes. -/
theorem trace_law (c : CircuitBreaker) (fresh : c.Fresh) (calls : List Call)
    (sorted : NonDecreasing calls) :
    (after c calls).consecutiveFailures = failuresSinceSuccess calls ∧
    ((after c calls).state = .closed ↔ failuresSinceSuccess calls < c.failureThreshold) ∧
    (∀ before now rest, calls = before ++ (.allowRequest, now) :: rest →
      c.failureThreshold ≤ failuresSinceSuccess before →
      ((after c before).allowRequest now).1 = true →
      ∃ t, lastFailure before = some t ∧ t + c.cooldownSeconds ≤ now) ∧
    (∀ before between rest, calls = before ++ between ++ rest →
      (∀ call ∈ between, call.1 = .allowRequest) → (after c before).state ≠ .closed →
      grants (after c before) between ≤ c.halfOpenProbeLimit) := by
  have h := traceInv_after fresh calls
  refine ⟨h.failures, by rw [h.closed, h.failures, h.threshold], ?_, ?_⟩
  · intro before now rest he above granted
    refine granted_after_cooldown fresh ?_ granted above
    rw [he, ← List.singleton_append, ← List.append_assoc] at sorted
    exact (List.pairwise_append.mp sorted).1
  · intro before between rest _ asks hs
    have hg := grants_le hs asks
    rw [(traceInv_after fresh before).probeLimit] at hg
    omega

theorem trace_law_two_failures : ∃ c : CircuitBreaker, c.Fresh ∧
    (after c [(.recordFailure, 0), (.recordFailure, 1), (.allowRequest, 31)]).consecutiveFailures
      = 2 ∧
    (after c [(.recordFailure, 0), (.recordFailure, 1), (.allowRequest, 31)]).state ≠ .closed := by
  let c : CircuitBreaker := {
    failureThreshold := 2
    cooldownSeconds := 30
    threshold_pos := by decide
    cooldown_nonneg := by norm_num
    probeLimit_pos := by decide }
  have fresh : c.Fresh := ⟨rfl, rfl, rfl, rfl⟩
  have law := trace_law c fresh [(.recordFailure, 0), (.recordFailure, 1), (.allowRequest, 31)]
    (by simp [NonDecreasing])
  exact ⟨c, fresh, law.1, fun closed => absurd (law.2.1.mp closed) (Nat.lt_irrefl 2)⟩

end PySwitch.CircuitTrace
