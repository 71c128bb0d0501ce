import PySwitch.Domain
import Mathlib.Tactic.Linarith

namespace PySwitch

def retryableErrors : List String :=
  ["PROVIDER_TIMEOUT", "PROVIDER_UNAVAILABLE", "HTTP_502", "HTTP_503"]

def isRetryable (error : ProviderError) : Bool := decide (error.code ∈ retryableErrors)

structure RetryPolicy where
  maxAttempts : ℕ := 3
  initialDelaySeconds : ℚ := 1 / 10
  maxDelaySeconds : ℚ := 8 / 10
  jitterRatio : ℚ := 2 / 10

/-- The delay before the jitter. A `float` is at most about `2 ** 1024`, so from this power on the
product raises `OverflowError`. -/
def RetryPolicy.base (policy : RetryPolicy) (retryNumber : ℕ) : Except String Seconds :=
  if 1024 ≤ retryNumber then .error "int too large to convert to float"
  else .ok (min policy.maxDelaySeconds (policy.initialDelaySeconds * 2 ^ retryNumber))

def RetryPolicy.jittered (policy : RetryPolicy) (base : Seconds) (randomValue : ℚ) : Seconds :=
  base * (1 + (randomValue * 2 - 1) * policy.jitterRatio)

/-- The constructor raises unless the three bounds hold, so every breaker carries them. -/
structure CircuitBreaker where
  failureThreshold : ℕ
  cooldownSeconds : Seconds
  halfOpenProbeLimit : ℕ := 1
  threshold_pos : 0 < failureThreshold
  cooldown_nonneg : 0 ≤ cooldownSeconds
  probeLimit_pos : 0 < halfOpenProbeLimit
  state : CircuitState := .closed
  consecutiveFailures : ℕ := 0
  openedAt : Seconds := 0
  probes : ℕ := 0

namespace CircuitBreaker

def make (failureThreshold : ℕ) (cooldownSeconds : Seconds) (halfOpenProbeLimit : ℕ) :
    Except String CircuitBreaker :=
  if h : 0 < failureThreshold ∧ 0 ≤ cooldownSeconds ∧ 0 < halfOpenProbeLimit then
    .ok ⟨failureThreshold, cooldownSeconds, halfOpenProbeLimit, h.1, h.2.1, h.2.2, .closed, 0, 0, 0⟩
  else .error "Circuit breaker thresholds must be positive"

/-- A breaker as it is constructed. -/
def Fresh (c : CircuitBreaker) : Prop :=
  c.state = .closed ∧ c.consecutiveFailures = 0 ∧ c.openedAt = 0 ∧ c.probes = 0

theorem make_fresh {threshold probeLimit : ℕ} {cooldown : Seconds} {c : CircuitBreaker}
    (h : make threshold cooldown probeLimit = .ok c) : c.Fresh := by
  unfold make at h
  split at h
  · cases h
    exact ⟨rfl, rfl, rfl, rfl⟩
  · cases h

def probe (c : CircuitBreaker) : Bool × CircuitBreaker :=
  if c.probes ≥ c.halfOpenProbeLimit then (false, c)
  else (true, { c with probes := c.probes + 1 })

def allowRequest (c : CircuitBreaker) (now : Seconds) : Bool × CircuitBreaker :=
  match c.state with
  | .closed => (true, c)
  | .opened =>
    if now - c.openedAt < c.cooldownSeconds then (false, c)
    else probe { c with state := .halfOpen, probes := 0 }
  | .halfOpen => probe c

def recordSuccess (c : CircuitBreaker) : CircuitBreaker :=
  { c with state := .closed, consecutiveFailures := 0, probes := 0 }

def recordFailure (c : CircuitBreaker) (now : Seconds) : CircuitBreaker :=
  let c := { c with consecutiveFailures := c.consecutiveFailures + 1 }
  if c.state = .halfOpen ∨ c.consecutiveFailures ≥ c.failureThreshold then
    { c with state := .opened, openedAt := now, probes := 0 }
  else c

theorem allowRequest_closed {c : CircuitBreaker} (h : c.state = .closed) (now : Seconds) :
    c.allowRequest now = (true, c) := by
  simp only [allowRequest, h]

theorem allowRequest_opened {c : CircuitBreaker} (h : c.state = .opened) (now : Seconds) :
    c.allowRequest now = if now - c.openedAt < c.cooldownSeconds then (false, c)
      else (true, { c with state := .halfOpen, probes := 1 }) := by
  have hp : ¬ (0 : ℕ) ≥ c.halfOpenProbeLimit := by have := c.probeLimit_pos; omega
  simp [allowRequest, h, probe, hp]

theorem allowRequest_halfOpen {c : CircuitBreaker} (h : c.state = .halfOpen) (now : Seconds) :
    c.allowRequest now = if c.probes ≥ c.halfOpenProbeLimit then (false, c)
      else (true, { c with probes := c.probes + 1 }) := by
  simp [allowRequest, h, probe]

/-- What a granted permit says about the breaker: it was closed and is left alone, or it is
half open afterwards and has counted one more probe. -/
theorem allowRequest_granted {c : CircuitBreaker} {now : Seconds}
    (h : (c.allowRequest now).1 = true) :
    (c.state = .closed ∧ (c.allowRequest now).2 = c) ∨
    (c.state = .opened ∧ c.cooldownSeconds ≤ now - c.openedAt ∧
      (c.allowRequest now).2 = { c with state := .halfOpen, probes := 1 }) ∨
    (c.state = .halfOpen ∧ c.probes < c.halfOpenProbeLimit ∧
      (c.allowRequest now).2 = { c with probes := c.probes + 1 }) := by
  cases hs : c.state with
  | closed => exact .inl ⟨rfl, by rw [allowRequest_closed hs]⟩
  | opened =>
    rw [allowRequest_opened hs] at h ⊢
    split at h
    · cases h
    · rename_i hc
      exact .inr (.inl ⟨rfl, not_lt.mp hc, by rw [if_neg hc]⟩)
  | halfOpen =>
    rw [allowRequest_halfOpen hs] at h ⊢
    split at h
    · cases h
    · rename_i hp
      exact .inr (.inr ⟨rfl, not_le.mp hp, by rw [if_neg hp, hs]⟩)

/-- A refused permit leaves the breaker as it was. -/
theorem allowRequest_refused {c : CircuitBreaker} {now : Seconds}
    (h : (c.allowRequest now).1 = false) :
    (c.allowRequest now).2 = c ∧ c.state ≠ .closed := by
  cases hs : c.state with
  | closed => rw [allowRequest_closed hs] at h; cases h
  | opened =>
    rw [allowRequest_opened hs] at h ⊢
    split at h
    · rename_i hc
      exact ⟨by rw [if_pos hc], by simp⟩
    · cases h
  | halfOpen =>
    rw [allowRequest_halfOpen hs] at h ⊢
    split at h
    · rename_i hp
      exact ⟨by rw [if_pos hp], by simp⟩
    · cases h

theorem closed_of_allowRequest {c : CircuitBreaker} {now : Seconds}
    (h : (c.allowRequest now).2.state = .closed) : c.state = .closed := by
  cases hg : (c.allowRequest now).1 with
  | false => rwa [(allowRequest_refused hg).1] at h
  | true =>
    obtain ⟨hs, -⟩ | ⟨-, -, he⟩ | ⟨hs, -, he⟩ := allowRequest_granted hg
    · exact hs
    · rw [he] at h; cases h
    · rwa [he] at h

theorem recordFailure_state (c : CircuitBreaker) (now : Seconds) :
    (c.recordFailure now).state = .opened ∨
      (c.recordFailure now).state = c.state ∧ c.state ≠ .halfOpen := by
  unfold recordFailure
  dsimp only
  split
  · exact .inl rfl
  · rename_i h
    exact .inr ⟨rfl, fun hs => h (.inl hs)⟩

theorem closed_of_recordFailure {c : CircuitBreaker} {now : Seconds}
    (h : (c.recordFailure now).state = .closed) : c.state = .closed := by
  obtain hs | ⟨hs, -⟩ := recordFailure_state c now
  · rw [hs] at h; cases h
  · rwa [hs] at h

end CircuitBreaker

end PySwitch
