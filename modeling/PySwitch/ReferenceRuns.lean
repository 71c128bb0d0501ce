import PySwitch.Reference
import PySwitch.VisitInvariant

namespace PySwitch.Visits

open Async Service

/-- What a trace says about an orchestration. -/
structure Digest where
  choices : List (List Provider × Provider)
  records : List Record
  saves : List Payment

def digest (trace : Trace) : Digest := ⟨choices trace, records trace, saves trace⟩

/-- The candidates a router has put in order, the one it chose first. -/
def ordered (healthy : List Provider) (provider : Provider) : List Provider :=
  provider :: healthy.filter fun p => p ≠ provider

theorem ordered_nodup {healthy : List Provider} (distinct : healthy.Nodup) (provider : Provider) :
    (ordered healthy provider).Nodup :=
  List.nodup_cons.mpr ⟨by simp, distinct.filter _⟩

/-- A payment has succeeded if its last visit returned, and has failed otherwise. -/
def outcome (visits : List Visit) : PaymentStatus :=
  if visits.getLast?.any (fun v => v.ending = .returned) then .succeeded else .failed

section Course

variable (policy : RetryPolicy) (providers : List Provider)

/-- All the errors of the visit so far have been retried. -/
structure Retrying (errors : List ProviderError) : Prop where
  all : ∀ earlier, earlier <+: errors → Ready policy earlier
  few : errors.length ≤ 1024

end Course

section Steps

variable {policy : RetryPolicy} {providers : List Provider} {D : Digest}

theorem Retrying.ready {errors : List ProviderError} (h : Retrying policy errors) :
    Ready policy errors := h.all errors (List.prefix_refl _)

theorem Retrying.nil (attempts : 0 < policy.maxAttempts) : Retrying policy [] where
  all := by
    intro earlier shorter
    obtain rfl := List.prefix_nil.mp shorter
    exact ⟨fun error member => absurd member (by simp), attempts⟩
  few := Nat.zero_le _

theorem Retrying.concat {errors : List ProviderError} {error : ProviderError}
    (h : Retrying policy errors) (ready : Ready policy (errors ++ [error]))
    (short : errors.length < 1024) : Retrying policy (errors ++ [error]) where
  all := by
    intro earlier shorter
    obtain rfl | shorter := List.prefix_concat_iff.mp shorter
    · exact ready
    · exact h.all earlier shorter
  few := by
    rw [List.length_append]
    exact short

theorem Retrying.count {errors : List ProviderError} (h : Retrying policy errors) :
    errors.countP (isRetryable ·) = errors.length := by
  apply List.countP_eq_length.mpr
  intro error mem
  obtain ⟨before, after, rfl⟩ := List.append_of_mem mem
  exact (h.all (before ++ [error]) ⟨after, by simp⟩).retryable

section Kept

variable {profile : Profile} {cfg : Config} {g : Stage} {trace : Trace} {e : Effect} {r : e.Reply}

/-- A reply that no provider outcome and no permit explains. -/
def Broken : ((e : Effect) × e.Reply) → Prop
  | ⟨.host (.sleep _), .error _⟩ => True
  | ⟨.semaphore (.acquire _ _), .error _⟩ => True
  | ⟨.provider (.finishPayment _ _), .error x⟩ => ∀ error, x ≠ .provider error
  | _ => False

end Kept

end Steps

section Main

variable {cfg : Config} {profile : Profile} {w : World} {s : ServiceState} {t : Tid}
  {T : ServiceTask}

end Main

end PySwitch.Visits
