import Mathlib.Data.DFinsupp.WellFounded
import Mathlib.SetTheory.Ordinal.Family
import PySwitch.Async.EventLoop

namespace PySwitch.Async

variable {τ κ ε : Type} {ρ : ε → Type} {α ι η ω : Type}

/-- How far a coroutine is from its end, however its effects are answered. -/
noncomputable def Coroutine.rank : Coroutine ε ρ α → Ordinal.{0}
  | .done _ => 0
  | .perform _ k => ⨆ r, (k r).rank + 1

theorem Coroutine.rank_lt {e : ε} (k : ρ e → Coroutine ε ρ α) (r : ρ e) :
    (k r).rank < (Coroutine.perform e k).rank := by
  rw [Coroutine.rank]
  exact Ordinal.lt_iSup_add_one (fun r => (k r).rank) r

/-- What is left to do for a task. -/
noncomputable def State.left (s : State τ κ ε ρ α ω) (t : τ) : Ordinal.{0} :=
  (s.tasks t).elim 0 fun T => T.code.rank

variable [DecidableEq τ] (S : System τ κ ε ρ α ι η ω)

/-- A step that gives a task a reply, or that suspends the task that runs. -/
inductive Productive (s : State τ κ ε ρ α ω) (l : Label τ κ ι η) (s' : State τ κ ε ρ α ω) : Prop
  | reply {t : τ} {e : ε} {r : ρ e} {w : ω} (delivered : Delivered S s l t e (.reply r w))
      (moved : step S l s = some s')
  | wait {t : τ} {e : ε} {w : ω} (running : s.running = some t)
      (delivered : Delivered S s l t e (.wait w)) (moved : step S l s = some s')

/-- Productive steps with labels of `A` can be taken until every call has ended, and there is an
end to them whichever of them are taken. -/
inductive Concludes (A : Label τ κ ι η → Prop) : State τ κ ε ρ α ω → Prop
  | idle {s : State τ κ ε ρ α ω} (ended : s.Idle) : Concludes A s
  | go {s : State τ κ ε ρ α ω} (next : ∃ l s', A l ∧ Productive S s l s')
      (all : ∀ l s', A l → Productive S s l s' → Concludes A s') : Concludes A s

variable {S} {s s' : State τ κ ε ρ α ω} {l : Label τ κ ι η} {A : Label τ κ ι η → Prop}

/-- A run that concludes can be taken to its end. -/
theorem Concludes.run (h : Concludes S A s) :
    ∃ ls s', run S ls s = some s' ∧ s'.Idle ∧ ∀ l ∈ ls, A l := by
  induction h with
  | @idle s ended => exact ⟨[], s, rfl, ended, nofun⟩
  | @go s next all ih =>
    obtain ⟨l, s', allowed, productive⟩ := next
    obtain ⟨ls, s'', rest, ended, others⟩ := ih l s' allowed productive
    have moved : step S l s = some s' := by
      cases productive with
      | reply _ moved => exact moved
      | wait _ _ moved => exact moved
    exact ⟨l :: ls, s'', run_cons S moved rest, ended, List.forall_mem_cons.mpr ⟨allowed, others⟩⟩

theorem delivered_reply {t : τ} {e : ε} {r : ρ e} {w : ω}
    (h : Delivered S s l t e (.reply r w)) (moved : step S l s = some s') :
    ∃ T k, s.tasks t = some T ∧ T.code = .perform e k ∧
      s' = s.put t ⟨T.call, k r, T.trace ++ [⟨e, r⟩]⟩ w := by
  obtain ⟨T, task, head⟩ := h.reached
  obtain ⟨k, code⟩ := Coroutine.perform_of_head head
  refine ⟨T, k, task, code, ?_⟩
  obtain ⟨i, rfl, running, answer⟩ | ⟨i, rfl, idle, answer⟩ := h.answer
  · rw [step_enter S running task code answer.symm] at moved
    exact (Option.some.inj moved).symm
  · rw [step_resume S idle task code answer.symm] at moved
    exact (Option.some.inj moved).symm

theorem delivered_wait {t : τ} {e : ε} {w : ω} (h : Delivered S s l t e (.wait w))
    (moved : step S l s = some s') : s' = { s with world := w, running := none } := by
  obtain ⟨T, task, head⟩ := h.reached
  obtain ⟨k, code⟩ := Coroutine.perform_of_head head
  obtain ⟨i, rfl, running, answer⟩ | ⟨i, rfl, idle, answer⟩ := h.answer
  · simp only [step, running, task, if_true, Option.bind_some, State.deliver, code,
      ← answer] at moved
    exact (Option.some.inj moved).symm
  · simp only [step, idle, task, if_true, Option.bind_some, State.deliver, code,
      ← answer] at moved
    exact (Option.some.inj moved).symm

section Suspended

variable {t : τ} {T : Task κ ε ρ α} {e : ε} {i : ι} {w : ω} {k : ρ e → Coroutine ε ρ α}
  (task : s.tasks t = some T) (code : T.code = .perform e k)

include task code

theorem step_enter_wait (running : s.running = some t) (answer : S.enter t e i s.world = .wait w) :
    step S (.enter t i) s = some { s with world := w, running := none } := by
  simp only [step, running, task, if_true, Option.bind_some, State.deliver, code, answer]

theorem step_resume_wait (idle : s.running = none) (answer : S.resume t e i s.world = .wait w) :
    step S (.resume t i) s = some { s with world := w, running := none } := by
  simp only [step, idle, task, if_true, Option.bind_some, State.deliver, code, answer]

end Suspended

theorem left_put (s : State τ κ ε ρ α ω) (t : τ) (T : Task κ ε ρ α) (w : ω) (u : τ) :
    (s.put t T w).left u = if u = t then T.code.rank else s.left u := by
  unfold State.left State.put
  by_cases hu : u = t
  · simp [hu]
  · simp [hu]

theorem left_reply {t : τ} {e : ε} {r : ρ e} {w : ω} (h : Delivered S s l t e (.reply r w))
    (moved : step S l s = some s') :
    s'.left t < s.left t ∧ ∀ u, u ≠ t → s'.left u = s.left u := by
  obtain ⟨T, k, task, code, rfl⟩ := delivered_reply h moved
  have before : s.left t = T.code.rank := by simp only [State.left, task, Option.elim_some]
  constructor
  · rw [left_put, if_pos rfl, before, code]
    exact Coroutine.rank_lt k r
  · intro u hu
    rw [left_put, if_neg hu]

theorem productive_tasks (h : Productive S s l s') {u : τ} (hu : s'.tasks u ≠ none) :
    s.tasks u ≠ none := by
  cases h with
  | @reply t e r w delivered moved =>
    obtain ⟨T, k, task, -, rfl⟩ := delivered_reply delivered moved
    by_cases same : u = t
    · rw [same, task]
      exact Option.some_ne_none _
    · simpa [State.put, same] using hu
  | wait running delivered moved =>
    obtain rfl := delivered_wait delivered moved
    exact hu

theorem less_reply {F : Finset τ} {t : τ} {e : ε} {r : ρ e} {w : ω}
    (h : Delivered S s l t e (.reply r w)) (moved : step S l s = some s')
    (tasks : ∀ t, s.tasks t ≠ none → t ∈ F) :
    (fun t : F => s'.left t) < (fun t : F => s.left t) := by
  obtain ⟨less, same⟩ := left_reply h moved
  obtain ⟨T, task, -⟩ := h.reached
  apply Pi.lt_def.mpr
  refine ⟨?_, ⟨t, tasks t (by simp [task])⟩, less⟩
  rintro ⟨u, hu⟩
  by_cases same_task : u = t
  · subst same_task
    exact less.le
  · exact (same u same_task).le

section Measure

variable {I : State τ κ ε ρ α ω → Prop} {F : Finset τ}
  (kept : ∀ s l s', I s → A l → Productive S s l s' → I s')
  (progress : ∀ s, I s → ¬s.Idle → ∃ l s', A l ∧ Productive S s l s')

include kept progress

/-- A state in which no task runs concludes if all states do that are closer to the end. -/
theorem concludes_resting (closer : ∀ s', I s' → (∀ t, s'.tasks t ≠ none → t ∈ F) →
      (fun t : F => s'.left t) < (fun t : F => s.left t) → Concludes S A s')
    (holds : I s) (tasks : ∀ t, s.tasks t ≠ none → t ∈ F) (resting : s.running = none) :
    Concludes S A s := by
  by_cases ended : s.Idle
  · exact .idle ended
  apply Concludes.go (progress s holds ended)
  intro l s' allowed productive
  have known : ∀ t, s'.tasks t ≠ none → t ∈ F :=
    fun t ht => tasks t (productive_tasks productive ht)
  apply closer s' (kept s l s' holds allowed productive) known
  cases productive with
  | wait running => cases resting.symm.trans running
  | @reply t e r w delivered moved =>
    exact less_reply delivered moved tasks

/-- Where tasks can always go on, they come to an end. -/
theorem concludes_of_progress (holds : I s) (tasks : ∀ t, s.tasks t ≠ none → t ∈ F) :
    Concludes S A s := by
  generalize measure : (fun t : F => s.left t) = f
  induction f using WellFoundedLT.induction generalizing s with
  | ind f ih =>
    have closer (s' : State τ κ ε ρ α ω) (holds' : I s') (tasks' : ∀ t, s'.tasks t ≠ none → t ∈ F)
        (less : (fun t : F => s'.left t) < f) : Concludes S A s' :=
      ih _ less holds' tasks' rfl
    cases running : s.running with
    | none =>
      apply concludes_resting kept progress (F := F) _ holds tasks running
      rw [measure]
      exact closer
    | some t =>
      by_cases ended : s.Idle
      · exact .idle ended
      apply Concludes.go (progress s holds ended)
      intro l s' allowed productive
      have known : ∀ t, s'.tasks t ≠ none → t ∈ F :=
        fun t ht => tasks t (productive_tasks productive ht)
      have holds' := kept s l s' holds allowed productive
      cases productive with
      | @reply u e r w delivered moved =>
        apply closer s' holds' known
        rw [← measure]
        exact less_reply delivered moved tasks
      | wait _ delivered moved =>
        obtain rfl := delivered_wait delivered moved
        apply concludes_resting kept progress (F := F) _ holds' known rfl
        intro s' holds'' tasks'' less
        apply closer s' holds'' tasks''
        rw [← measure]
        exact less

end Measure

section Reached

variable {C : State τ κ ε ρ α ω → Label τ κ ι η → Prop} {w : ω}

theorem tasks_finite (h : Reaches S C (.empty w) s) :
    ∃ F : Finset τ, ∀ t, s.tasks t ≠ none → t ∈ F := by
  induction h with
  | refl => exact ⟨∅, fun t ht => absurd rfl ht⟩
  | @tail s s' l before meets moved ih =>
    obtain ⟨F, known⟩ := ih
    have grown {t u : τ} {T : Task κ ε ρ α} {w : ω} (hu : (s.put t T w).tasks u ≠ none) :
        u ∈ insert t F := by
      by_cases same : u = t
      · rw [same]
        exact Finset.mem_insert_self t F
      · exact Finset.mem_insert_of_mem (known u (by simpa [State.put, same] using hu))
    cases step_moves S moved with
    | @call t c idle new => exact ⟨insert t F, fun u hu => grown hu⟩
    | @reply l t T e k r w task code delivered => exact ⟨insert t F, fun u hu => grown hu⟩
    | wait task code delivered => exact ⟨F, known⟩
    | outside idle stepped => exact ⟨F, known⟩

/-- The task that runs has not ended. -/
theorem running_at (h : Reaches S C (.empty w) s) {t : τ} (running : s.running = some t) :
    ∃ e, s.At t e := by
  have at_put {s : State τ κ ε ρ α ω} {u : τ} {T : Task κ ε ρ α} {w : ω}
      (running : (s.put u T w).running = some t) : ∃ e, (s.put u T w).At t e := by
    cases code : T.code with
    | done a => simp [State.put, code, Coroutine.isDone] at running
    | perform e k =>
      rw [put_running s u w code] at running
      obtain rfl := Option.some.inj running
      exact ⟨e, T, put_task .., by rw [code]; rfl⟩
  induction h with
  | refl => cases running
  | @tail s s' l before meets moved ih =>
    cases step_moves S moved with
    | call idle new => exact at_put running
    | reply task code delivered => exact at_put running
    | wait task code delivered => cases running
    | outside idle stepped => exact ih running

/-- A task that does not run is at an effect that has suspended it. -/
theorem suspended_waited (h : Reaches S C (.empty w) s) {t : τ} {e : ε} (reached : s.At t e)
    (off : s.running ≠ some t) : ∃ u l w', Delivered S u l t e (.wait w') := by
  induction h with
  | refl =>
    obtain ⟨T, task, -⟩ := reached
    cases task
  | @tail s s' l before meets moved ih =>
    have other {u : τ} {T : Task κ ε ρ α} {w : ω} (reached : (s.put u T w).At t e)
        (off : (s.put u T w).running ≠ some t) : t ≠ u ∧ s.At t e := by
      obtain ⟨U, task, head⟩ := reached
      by_cases same : t = u
      · subst same
        obtain rfl : T = U := by simpa [State.put] using task
        obtain ⟨k, code⟩ := Coroutine.perform_of_head head
        exact absurd (put_running s t w code) off
      · exact ⟨same, U, by simpa [State.put, same] using task, head⟩
    cases step_moves S moved with
    | @call u c idle new =>
      apply ih (other reached off).2
      rw [idle]
      intro h
      cases h
    | @reply l u T e' k r w task code delivered =>
      obtain ⟨ne, before⟩ := other reached off
      apply ih before
      intro running
      exact ne (delivered.running running)
    | @wait l u T e' k w task code delivered =>
      by_cases same : t = u
      · subst same
        have at_ : s.At t e := reached
        obtain rfl := at_.unique delivered.reached
        exact ⟨s, l, w, delivered⟩
      · apply ih reached
        intro running
        exact same (delivered.running running)
    | outside idle stepped =>
      apply ih reached
      rw [idle]
      intro h
      cases h

end Reached

end PySwitch.Async
