import PySwitch.Replay
import PySwitch.VisitProtocol

namespace PySwitch.Visits

open Async Service

/-- What circuits and providers are asked for a payment, and what they answer. -/
inductive Record where
  | asked (provider : Provider) (allowed : Bool)
  | called (provider : Provider) (error : Option ProviderError)
  deriving DecidableEq

/-- After these errors a provider is called, provided that its circuit grants a permit. -/
def Ready (policy : RetryPolicy) (errors : List ProviderError) : Prop :=
  (∀ error ∈ errors.getLast?, isRetryable error = true) ∧ errors.length < policy.maxAttempts

namespace Visit

structure Proper (policy : RetryPolicy) (v : Visit) : Prop where
  again : ∀ earlier, earlier <+: v.errors → earlier ≠ v.errors → Ready policy earlier
  ending : v.ending = .gaveUp ↔ ¬Ready policy v.errors

/-- The code of the error that ends the visit. -/
def code (v : Visit) : Option String :=
  match v.ending with
  | .returned => none
  | .refused => some "CIRCUIT_OPEN"
  | .gaveUp => v.errors.getLast?.map ProviderError.code

def failsOver (v : Visit) : Bool := v.code.any fun code => code ∈ failoverErrors

def records (v : Visit) : List Record :=
  (v.errors.flatMap fun error => [.asked v.provider true, .called v.provider (some error)]) ++
  match v.ending with
  | .returned => [.asked v.provider true, .called v.provider none]
  | .refused => [.asked v.provider false]
  | .gaveUp => []

/-- The attempts of a visit: the last one has succeeded or failed, those before are retried. -/
def history (v : Visit) : List Mark :=
  (v.errors.mapIdx fun i error =>
    ⟨v.provider, i + 1, if i + 1 = v.calls then .failed else .retry, some error.code⟩) ++
  if v.ending = .returned then [⟨v.provider, v.errors.length + 1, .succeeded, none⟩] else []

end Visit

/-- The visits of an orchestration: from one candidate to the next as long as the error that
ends a visit fails over. -/
def Tour (policy : RetryPolicy) : List Provider → List Visit → Prop
  | [], visits => visits = []
  | _ :: _, [] => False
  | provider :: rest, v :: visits =>
    v.provider = provider ∧ v.Proper policy ∧
      if v.failsOver then Tour policy rest visits else visits = []

section Trace

abbrev Trace : Type := List ((e : Effect) × e.Reply)

def record : ((e : Effect) × e.Reply) → Option Record
  | ⟨.circuit (.allowRequest provider), answer⟩ => some (.asked provider answer.1)
  | ⟨.provider (.finishPayment provider _), .ok _⟩ => some (.called provider none)
  | ⟨.provider (.finishPayment provider _), .error (.provider error)⟩ =>
    some (.called provider (some error))
  | _ => none

def records (trace : Trace) : List Record := trace.filterMap record

def check : ((e : Effect) × e.Reply) → Option (Provider × Bool)
  | ⟨.provider (.healthCheck provider), .ok healthy⟩ => some (provider, healthy)
  | _ => none

/-- What the providers answered that were asked for their health. -/
def checks (trace : Trace) : List (Provider × Bool) := trace.filterMap check

/-- The providers the router chose from, and the one it chose. -/
def choice : ((e : Effect) × e.Reply) → Option (List Provider × Provider)
  | ⟨.provider (.choose healthy), .ok provider⟩ => some (healthy, provider)
  | _ => none

def choices (trace : Trace) : List (List Provider × Provider) := trace.filterMap choice

def saves (trace : Trace) : List Payment := trace.filterMap Claim.savedPayment

theorem saves_concat (trace : Trace) (x : (e : Effect) × e.Reply) :
    saves (trace ++ [x]) = saves trace ++ (Claim.savedPayment x).toList := by
  simp only [saves, List.filterMap_append, List.filterMap_cons, List.filterMap_nil]
  cases Claim.savedPayment x <;> rfl

end Trace

section Ready

variable {policy : RetryPolicy} {errors : List ProviderError} {error : ProviderError}

theorem Ready.retryable (h : Ready policy (errors ++ [error])) : isRetryable error = true :=
  h.1 error (by simp)

end Ready

section History

variable {policy : RetryPolicy} {v : Visit}

/-- In a proper visit every call but the last has raised a retryable error. -/
theorem Visit.Proper.retryable (h : v.Proper policy) {earlier : List ProviderError}
    {error : ProviderError} (shorter : earlier ++ [error] <+: v.errors)
    (more : earlier.length + 1 ≠ v.calls) : isRetryable error = true := by
  by_cases whole : earlier ++ [error] = v.errors
  · have length := congrArg List.length whole
    rw [List.length_append, List.length_singleton] at length
    have returned : v.ending = .returned := by
      by_contra unreturned
      rw [Visit.calls, if_neg unreturned] at more
      omega
    have ready : Ready policy v.errors := by
      by_contra spent
      cases returned.symm.trans (h.ending.mpr spent)
    rw [← whole] at ready
    exact ready.retryable
  · exact (h.again _ shorter whole).retryable

theorem failLastMark_concat (marks : List Mark) (m : Mark) :
    failLastMark (marks ++ [m]) = marks ++ [{ m with result := .failed }] := by
  induction marks with
  | nil => rfl
  | cons first marks ih =>
    cases marks with
    | nil => rfl
    | cons second marks =>
      rw [List.cons_append, List.cons_append, failLastMark, ← List.cons_append, ih]
      · rfl
      · simp

theorem errorMarks_eq {provider : Provider} {errors : List ProviderError} {last : ℕ}
    (short : errors.length < last) (retryable : ∀ error ∈ errors, isRetryable error = true) :
    errorMarks provider errors = errors.mapIdx fun i error =>
      ⟨provider, i + 1, if i + 1 = last then .failed else .retry, some error.code⟩ := by
  apply List.ext_getElem
  · simp [errorMarks]
  · intro i h _
    have bound : i < errors.length := by simpa [errorMarks] using h
    have before : i + 1 ≠ last := by omega
    simp [errorMarks, errorMark, before, retryable _ (List.getElem_mem bound)]

theorem Visit.Proper.marks (h : v.Proper policy) : v.marks = v.history := by
  obtain ⟨provider, errors, ending⟩ := v
  have retryable {pre : List ProviderError} (shorter : pre <+: errors)
      (more : pre.length < (Visit.mk provider errors ending).calls) :
      ∀ error ∈ pre, isRetryable error = true := by
    intro error mem
    obtain ⟨before, after, rfl⟩ := List.append_of_mem mem
    have initial : before ++ [error] <+: errors := .trans ⟨after, by simp⟩ shorter
    apply h.retryable initial
    simp at more
    omega
  by_cases returned : ending = .returned
  · have calls : errors.length < (Visit.mk provider errors ending).calls := by
      simp [Visit.calls, returned]
    rw [Visit.marks, Visit.history, if_pos returned, if_pos returned]
    rw [errorMarks_eq calls (retryable (List.prefix_refl _) calls)]
  · rw [Visit.marks, Visit.history, if_neg returned, if_neg returned, List.append_nil]
    obtain rfl | ⟨pre, error, rfl⟩ := List.eq_nil_or_concat' errors
    · rfl
    · have calls : (Visit.mk provider (pre ++ [error]) ending).calls = pre.length + 1 := by
        simp [Visit.calls, returned]
      have short : pre.length < (Visit.mk provider (pre ++ [error]) ending).calls := by omega
      dsimp only
      rw [errorMarks_concat, failLastMark_concat,
        errorMarks_eq short (retryable (List.prefix_append _ _) short), List.mapIdx_concat]
      simp [errorMark, calls]

/-- The candidates are visited in their order, each at most once. -/
theorem Tour.order {candidates : List Provider} {visits : List Visit}
    (h : Tour policy candidates visits) : visits.map Visit.provider <+: candidates := by
  induction visits generalizing candidates with
  | nil => exact List.nil_prefix
  | cons first visits ih =>
    cases candidates with
    | nil => cases h
    | cons provider rest =>
      obtain ⟨rfl, -, further⟩ := h
      rw [List.map_cons]
      refine List.cons_prefix_cons.mpr ⟨rfl, ?_⟩
      split at further
      · exact ih further
      · subst further
        exact List.nil_prefix

end History

end PySwitch.Visits
