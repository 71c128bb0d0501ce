import PySwitch.Visits
import Mathlib.Algebra.BigOperators.Group.List.Basic
import Mathlib.Data.List.Induction
import Mathlib.Data.List.Nodup

namespace PySwitch.Visits

open Async Service

section Positions

/-- Which call of which provider a mark stands for. -/
def Mark.position (m : Mark) : Provider × ℕ := (m.provider, m.attemptNumber)

theorem position_errorMarks (provider : Provider) (errors : List ProviderError) :
    (errorMarks provider errors).map Mark.position =
      (List.range errors.length).map fun i => (provider, i + 1) := by
  induction errors using List.reverseRecOn with
  | nil => rfl
  | append_singleton errors error ih =>
    rw [errorMarks_concat, List.map_append, ih, List.length_append, List.length_singleton,
      List.range_succ, List.map_append]
    rfl

theorem position_failLastMark (marks : List Mark) :
    (failLastMark marks).map Mark.position = marks.map Mark.position := by
  fun_induction failLastMark marks with
  | case1 => rfl
  | case2 m => rfl
  | case3 m marks some ih => rw [List.map_cons, ih, List.map_cons]

theorem Visit.positions (v : Visit) :
    v.marks.map Mark.position = (List.range v.calls).map fun i => (v.provider, i + 1) := by
  unfold Visit.marks Visit.calls
  split
  · rw [List.map_append, position_errorMarks, List.range_succ, List.map_append]
    rfl
  · rw [position_failLastMark, position_errorMarks]
    rfl

/-- How many calls the visits made to a provider. -/
def callsTo (provider : Provider) (visits : List Visit) : ℕ :=
  (visits.map fun v => if v.provider = provider then v.calls else 0).sum

@[simp] theorem callsTo_nil (provider : Provider) : callsTo provider [] = 0 := rfl

theorem callsTo_cons (provider : Provider) (v : Visit) (visits : List Visit) :
    callsTo provider (v :: visits) =
      (if v.provider = provider then v.calls else 0) + callsTo provider visits := rfl

theorem callsTo_concat (provider : Provider) (visits : List Visit) (v : Visit) :
    callsTo provider (visits ++ [v]) =
      callsTo provider visits + if v.provider = provider then v.calls else 0 := by
  simp [callsTo]

theorem callsTo_unvisited {provider : Provider} {visits : List Visit}
    (h : provider ∉ visits.map Visit.provider) : callsTo provider visits = 0 := by
  apply List.sum_eq_zero
  intro n hn
  obtain ⟨v, hv, rfl⟩ := List.mem_map.mp hn
  rw [if_neg]
  rintro rfl
  exact h (List.mem_map_of_mem hv)

theorem count_positions (v : Visit) (provider : Provider) (n : ℕ) :
    (v.marks.map Mark.position).count (provider, n) =
      if v.provider = provider ∧ 0 < n ∧ n ≤ v.calls then 1 else 0 := by
  rw [v.positions]
  split
  · rename_i h
    obtain ⟨rfl, positive, bound⟩ := h
    apply List.count_eq_one_of_mem
    · apply List.nodup_range.map
      intro i j h
      simpa using h
    · exact List.mem_map.mpr ⟨n - 1, List.mem_range.mpr (by omega), by
        rw [Nat.sub_add_cancel positive]⟩
  · rename_i h
    apply List.count_eq_zero_of_not_mem
    intro mem
    obtain ⟨i, hi, same⟩ := List.mem_map.mp mem
    obtain ⟨rfl, rfl⟩ := Prod.mk.inj same
    exact h ⟨rfl, Nat.succ_pos i, List.mem_range.mp hi⟩

/-- Where no provider is visited twice, every call has one mark. -/
theorem count_history {visits : List Visit} (distinct : (visits.map Visit.provider).Nodup)
    {provider : Provider} {n : ℕ} (positive : 0 < n) (bound : n ≤ callsTo provider visits) :
    ((visits.flatMap Visit.marks).map Mark.position).count (provider, n) = 1 := by
  induction visits with
  | nil => exact absurd bound (Nat.not_le.mpr positive)
  | cons v visits ih =>
    obtain ⟨new, distinct⟩ := List.nodup_cons.mp distinct
    rw [List.flatMap_cons, List.map_append, List.count_append, count_positions]
    by_cases visited : v.provider = provider
    · subst visited
      rw [callsTo_cons, if_pos rfl, callsTo_unvisited new, Nat.add_zero] at bound
      have none : ((visits.flatMap Visit.marks).map Mark.position).count (v.provider, n) = 0 := by
        apply List.count_eq_zero_of_not_mem
        intro mem
        obtain ⟨m, hm, same⟩ := List.mem_map.mp mem
        obtain ⟨u, hu, hm⟩ := List.mem_flatMap.mp hm
        have position : m.position ∈ u.marks.map Mark.position := List.mem_map_of_mem hm
        rw [u.positions] at position
        obtain ⟨i, -, hi⟩ := List.mem_map.mp position
        rw [same] at hi
        exact new (List.mem_map.mpr ⟨u, hu, (Prod.mk.inj hi).1⟩)
      rw [if_pos ⟨rfl, positive, bound⟩, none]
    · rw [callsTo_cons, if_neg visited, Nat.zero_add] at bound
      rw [if_neg fun h => visited h.1, ih distinct bound]

end Positions

section Calls

/-- How many calls a draft has made to a provider. -/
def Draft.callsTo (d : Draft) (provider : Provider) : ℕ :=
  Visits.callsTo provider d.visits + if d.provider = provider then d.errors.length else 0

/-- The providers a draft has visited, visits or can still visit. -/
def Draft.plan (d : Draft) : List Provider := d.visits.map Visit.provider ++ d.provider :: d.rest

namespace Stage

/-- The identifier of the payment a call has made up and not saved. -/
def draft : Stage → Option Uuid
  | .routing id => some id
  | .asking d => some d.id
  | .permitted d => some d.id
  | .calling d => some d.id
  | .returned d _ => some d.id
  | .failed id _ => some id
  | .abandoned id => some id
  | _ => none

def callsTo (g : Stage) (provider : Provider) : ℕ :=
  match g with
  | .asking d => d.callsTo provider
  | .permitted d => d.callsTo provider
  | .calling d => d.callsTo provider + if d.provider = provider then 1 else 0
  | .returned d _ => d.callsTo provider + if d.provider = provider then 1 else 0
  | .failed _ visits => Visits.callsTo provider visits
  | _ => 0

def plan : Stage → List Provider
  | .asking d => d.plan
  | .permitted d => d.plan
  | .calling d => d.plan
  | .returned d _ => d.plan
  | .failed _ visits => visits.map Visit.provider
  | _ => []

/-- The stored payment a refund works on. -/
def target : Stage → Option Payment
  | .found q => some q
  | .applying q => some q
  | _ => none

/-- The stage goes on with a draft, and with the calls it has made. -/
structure Continues (g : Stage) (id : Uuid) (calls : Provider → ℕ) (plan : List Provider) :
    Prop where
  draft : g.draft = some id
  calls : ∀ provider, g.callsTo provider = calls provider
  plan : g.plan.Sublist plan
  target : g.target = none

end Stage

theorem over_callsTo (d : Draft) (ending : Ending) (provider : Provider) :
    callsTo provider (d.close ending) =
      d.callsTo provider + if d.provider = provider ∧ ending = .returned then 1 else 0 := by
  rw [Draft.close, callsTo_concat, Draft.callsTo, Visit.calls]
  by_cases h : d.provider = provider <;> simp [h, Nat.add_assoc]

theorem visit_continues (id : Uuid) (visits : List Visit) (candidates : List Provider) :
    (visit id visits candidates).Continues id (fun provider => callsTo provider visits)
      (visits.map Visit.provider ++ candidates) := by
  cases candidates with
  | nil => exact ⟨rfl, fun _ => rfl, by simp [visit, Stage.plan], rfl⟩
  | cons provider rest =>
    exact ⟨rfl, fun p => by simp [visit, Stage.callsTo, Draft.callsTo], .refl _, rfl⟩

theorem leave_continues (d : Draft) {ending : Ending} (unreturned : ending ≠ .returned)
    (code : String) : (d.leave ending code).Continues d.id d.callsTo d.plan := by
  have calls (provider : Provider) : callsTo provider (d.close ending) = d.callsTo provider := by
    simp [over_callsTo, unreturned]
  have plan : (d.close ending).map Visit.provider ++ d.rest = d.plan := by
    simp [Draft.close, Draft.plan]
  unfold Draft.leave
  split
  · have further := visit_continues d.id (d.close ending) d.rest
    exact ⟨further.draft, fun p => (further.calls p).trans (calls p), plan ▸ further.plan,
      further.target⟩
  · exact ⟨rfl, calls, plan ▸ List.sublist_append_left _ _, rfl⟩

theorem raised_callsTo (d : Draft) (error : ProviderError) (provider : Provider) :
    (d.raised error).callsTo provider = (Stage.calling d).callsTo provider := by
  by_cases h : d.provider = provider <;>
    simp [Stage.callsTo, Draft.callsTo, Draft.raised, h, Nat.add_assoc]

theorem Draft.callsTo_provider {d : Draft} (distinct : d.plan.Nodup) :
    d.callsTo d.provider = d.errors.length := by
  have new : d.provider ∉ d.visits.map Visit.provider := fun visited =>
    (List.nodup_append.mp distinct).2.2 _ visited _ (List.mem_cons_self ..) rfl
  rw [Draft.callsTo, callsTo_unvisited new, if_pos rfl, Nat.zero_add]

/-- A provider that returns or raises a `ProviderError` leaves the draft alive, as long as the
delay before the next call fits. -/
theorem answer_continues (policy : RetryPolicy) (d : Draft)
    {r : Except Exn ProviderPaymentResult}
    (answered : ∀ x, r = .error x → ∃ error, x = .provider error ∧ (isRetryable error = true →
      d.errors.length + 1 = policy.maxAttempts ∨ d.errors.length < 1024)) :
    ((Stage.calling d).answer policy r).Continues d.id (Stage.calling d).callsTo d.plan := by
  cases r with
  | ok result => exact ⟨rfl, fun _ => rfl, .refl _, rfl⟩
  | error x =>
    obtain ⟨error, rfl, fits⟩ := answered x rfl
    simp only [Stage.answer, Draft.fail]
    split
    · have further :=
        leave_continues (d.raised error) (by decide : Ending.gaveUp ≠ .returned) error.code
      exact ⟨further.draft, fun p => (further.calls p).trans (raised_callsTo d error p),
        further.plan, further.target⟩
    · rename_i again
      obtain ⟨retryable, more⟩ := not_or.mp again
      have fits := (fits (by simpa using retryable)).resolve_left more
      rw [if_neg (Nat.not_le.mpr fits)]
      exact ⟨rfl, raised_callsTo d error, .refl _, rfl⟩

end Calls

end PySwitch.Visits
