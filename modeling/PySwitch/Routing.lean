import PySwitch.Domain

namespace PySwitch

/-- Observations of one provider over a bounded window of recent calls. -/
structure ProviderStats where
  windowSize : ℕ := 20
  recent : List (Bool × ℚ) := []
  inflight : ℕ := 0
  totalRequests : ℕ := 0
  successes : ℕ := 0
  failures : ℕ := 0
  timeouts : ℕ := 0
  lastSuccessAt : Option Seconds := none
  lastFailureAt : Option Seconds := none

namespace ProviderStats

def start (s : ProviderStats) : ProviderStats := { s with inflight := s.inflight + 1 }

def remember (s : ProviderStats) (success : Bool) (latencyMs : ℚ) : ProviderStats :=
  let recent := s.recent ++ [(success, max 0 latencyMs)]
  { s with recent := recent.drop (recent.length - s.windowSize) }

/-- `inflight` never drops below zero: it is cut off there by the subtraction. -/
def finish (s : ProviderStats) (success : Bool) (latencyMs : ℚ) (errorCode : Option String)
    (now : Seconds) : ProviderStats :=
  let s := { s with inflight := s.inflight - 1, totalRequests := s.totalRequests + 1 }
  if success then
    { s with successes := s.successes + 1, lastSuccessAt := some now }.remember success latencyMs
  else
    { s with
      failures := s.failures + 1
      lastFailureAt := some now
      timeouts := if errorCode = some "PROVIDER_TIMEOUT" then s.timeouts + 1 else s.timeouts
      }.remember success latencyMs

end ProviderStats

end PySwitch
