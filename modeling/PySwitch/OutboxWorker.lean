import Mathlib.Data.List.Basic
import Mathlib.Logic.Function.Basic

namespace PySwitch.OutboxWorker

/-- Where the loop of a worker is: it has not begun, it dispatches, or it waits for the stop or
the next poll. -/
inductive Phase where
  | ready
  | dispatching
  | pausing
  | done
  deriving DecidableEq

/-- A task that runs the loop, and whether it has been asked to end. -/
structure Worker where
  phase : Phase := .ready
  cancelled : Bool := false
  deriving DecidableEq

/-- The event and the task of a dispatcher, the tasks it has made so far, and the tasks that calls
of `stop` are waiting for. Which tasks were made while a call of `stop` was waiting is kept for
the proofs only. -/
structure Dispatcher where
  stopSet : Bool := false
  task : Option ℕ := none
  made : ℕ := 0
  workers : ℕ → Worker := fun _ => {}
  stopping : List ℕ := []
  late : List ℕ := []

inductive Event where
  | start
  | stop
  | stopped (worker : ℕ)
  | advance (worker : ℕ)

/-- A cancelled task ends where it next comes to run. An error of a dispatch is swallowed. -/
def Worker.advance (stopSet : Bool) (w : Worker) : Worker :=
  if w.cancelled then { w with phase := .done }
  else match w.phase with
    | .dispatching => { w with phase := .pausing }
    | _ => { w with phase := if stopSet then .done else .dispatching }

namespace Dispatcher

variable (s : Dispatcher)

def setWorker (worker : ℕ) (w : Worker) : Dispatcher :=
  { s with workers := Function.update s.workers worker w }

def launch : Dispatcher :=
  { s with
    stopSet := false
    task := some s.made
    made := s.made + 1
    workers := Function.update s.workers s.made {}
    late := if s.stopping = [] then s.late else s.made :: s.late }

def start : Dispatcher :=
  match s.task with
  | none => s.launch
  | some worker => if (s.workers worker).phase = .done then s.launch else s

/-- The call waits for the task it has cancelled; one that has ended is forgotten at once. -/
def stop : Dispatcher :=
  match s.task with
  | none => s
  | some worker =>
    if (s.workers worker).phase = .done then { s with stopSet := true, task := none }
    else
      { s.setWorker worker { s.workers worker with cancelled := true } with
        stopSet := true
        stopping := worker :: s.stopping }

/-- What happens next at a dispatcher, if it can. A call of `stop` returns when its task has
ended, and forgets whatever task there is by then. -/
def step (s : Dispatcher) : Event → Option Dispatcher
  | .start => some s.start
  | .stop => some s.stop
  | .stopped worker =>
    if worker ∈ s.stopping ∧ (s.workers worker).phase = .done then
      some { s with task := none, stopping := s.stopping.erase worker }
    else none
  | .advance worker =>
    if worker < s.made ∧ (s.workers worker).phase ≠ .done then
      some (s.setWorker worker ((s.workers worker).advance s.stopSet))
    else none

def run : List Event → Dispatcher → Option Dispatcher
  | [], s => some s
  | event :: events, s => (s.step event).bind (run events)

def Alive (worker : ℕ) : Prop := worker < s.made ∧ (s.workers worker).phase ≠ .done

end Dispatcher

/-- A worker that goes on is the task of the dispatcher, or it was made while a call of `stop` was
waiting, and who waits for a worker has cancelled it. -/
structure Inv (s : Dispatcher) : Prop where
  task : ∀ {w}, s.task = some w → w < s.made
  owned : ∀ {w}, s.Alive w → s.task = some w ∨ w ∈ s.late
  awaited : ∀ {w}, w ∈ s.stopping → w < s.made
  ending : ∀ {w}, w ∈ s.stopping → (s.workers w).phase = .done ∨ (s.workers w).cancelled
  replaced : ∀ {w w'}, w ∈ s.stopping → s.task = some w' → w' = w ∨ w' ∈ s.late

variable {s s' : Dispatcher} {event : Event} {events : List Event} {w : ℕ}

theorem inv_initial : Inv {} := by
  constructor <;> simp [Dispatcher.Alive]

theorem inv_launch (h : Inv s) (idle : ∀ w, s.task = some w → (s.workers w).phase = .done) :
    Inv s.launch := by
  constructor
  · rintro w ⟨⟩
    exact Nat.lt_succ_self _
  · rintro w ⟨made, open_⟩
    by_cases new : w = s.made
    · exact .inl (congrArg some new.symm)
    · right
      have alive : s.Alive w := by
        refine ⟨Nat.lt_of_le_of_ne (Nat.le_of_lt_succ made) new, ?_⟩
        simpa [Dispatcher.launch, new] using open_
      obtain current | late := h.owned alive
      · exact absurd (idle w current) alive.2
      · unfold Dispatcher.launch
        split
        · exact late
        · exact List.mem_cons_of_mem _ late
  · intro w mem
    exact Nat.lt_succ_of_lt (h.awaited mem)
  · intro w mem
    have old : w ≠ s.made := Nat.ne_of_lt (h.awaited mem)
    simpa [Dispatcher.launch, old] using h.ending mem
  · rintro w w' mem ⟨⟩
    right
    have some : s.stopping ≠ [] := List.ne_nil_of_mem mem
    simp [Dispatcher.launch, some]

theorem inv_start (h : Inv s) : Inv s.start := by
  unfold Dispatcher.start
  cases task : s.task with
  | none =>
    apply inv_launch h
    intro w current
    rw [task] at current
    cases current
  | some w =>
    dsimp only
    by_cases ended : (s.workers w).phase = .done
    · rw [if_pos ended]
      apply inv_launch h
      intro w' current
      obtain rfl : w = w' := Option.some.inj (task.symm.trans current)
      exact ended
    · rw [if_neg ended]
      exact h

theorem inv_stop (h : Inv s) : Inv s.stop := by
  unfold Dispatcher.stop
  cases task : s.task with
  | none => exact h
  | some w =>
    dsimp only
    by_cases ended : (s.workers w).phase = .done
    · rw [if_pos ended]
      constructor
      · rintro w' ⟨⟩
      · rintro w' alive
        obtain current | late := h.owned alive
        · obtain rfl : w = w' := Option.some.inj (task.symm.trans current)
          exact absurd ended alive.2
        · exact .inr late
      · exact h.awaited
      · exact h.ending
      · rintro w' w'' - ⟨⟩
    · rw [if_neg ended]
      have phases (w' : ℕ) : (Function.update s.workers w
          { s.workers w with cancelled := true } w').phase = (s.workers w').phase := by
        by_cases same : w' = w
        · simp [same]
        · simp [same]
      constructor
      · exact fun current => h.task current
      · rintro w' ⟨made, open_⟩
        exact h.owned ⟨made, phases w' ▸ open_⟩
      · intro w' mem
        obtain rfl | mem := List.mem_cons.mp mem
        · exact h.task task
        · exact h.awaited mem
      · intro w' mem
        by_cases same : w' = w
        · right
          simp [Dispatcher.setWorker, same]
        · obtain rfl | mem := List.mem_cons.mp mem
          · exact absurd rfl same
          · simpa [Dispatcher.setWorker, same] using h.ending mem
      · intro w' w'' mem current
        obtain rfl | mem := List.mem_cons.mp mem
        · exact .inl (Option.some.inj (current.symm.trans task))
        · exact h.replaced mem current

theorem inv_stopped (h : Inv s) (mem : w ∈ s.stopping) (ended : (s.workers w).phase = .done) :
    Inv { s with task := none, stopping := s.stopping.erase w } := by
  constructor
  · rintro w' ⟨⟩
  · rintro w' alive
    right
    obtain current | late := h.owned alive
    · obtain rfl | late := h.replaced mem current
      · exact absurd ended alive.2
      · exact late
    · exact late
  · exact fun still => h.awaited (List.mem_of_mem_erase still)
  · exact fun still => h.ending (List.mem_of_mem_erase still)
  · rintro w' w'' - ⟨⟩

theorem advance_cancelled (stopSet : Bool) (w : Worker) :
    (w.advance stopSet).cancelled = w.cancelled := by
  unfold Worker.advance
  split
  · rfl
  · split
    · rfl
    · rfl

theorem inv_advance (h : Inv s) (open_ : (s.workers w).phase ≠ .done) :
    Inv (s.setWorker w ((s.workers w).advance s.stopSet)) := by
  constructor
  · exact h.task
  · rintro w' ⟨made, alive⟩
    apply h.owned
    refine ⟨made, ?_⟩
    by_cases same : w' = w
    · rw [same]
      exact open_
    · simpa [Dispatcher.setWorker, same] using alive
  · exact h.awaited
  · intro w' mem
    by_cases same : w' = w
    · subst same
      have cancelled := (h.ending mem).resolve_left open_
      right
      simpa [Dispatcher.setWorker, advance_cancelled] using cancelled
    · simpa [Dispatcher.setWorker, same] using h.ending mem
  · exact h.replaced

theorem inv_step (h : Inv s) (moved : s.step event = some s') : Inv s' := by
  cases event with
  | start =>
    cases moved
    exact inv_start h
  | stop =>
    cases moved
    exact inv_stop h
  | stopped w =>
    obtain ⟨⟨mem, ended⟩, same⟩ := Option.ite_none_right_eq_some.mp moved
    obtain rfl := Option.some.inj same
    exact inv_stopped h mem ended
  | advance w =>
    obtain ⟨⟨-, open_⟩, same⟩ := Option.ite_none_right_eq_some.mp moved
    obtain rfl := Option.some.inj same
    exact inv_advance h open_

theorem inv_run (h : Inv s) (moved : s.run events = some s') : Inv s' := by
  induction events generalizing s with
  | nil =>
    cases moved
    exact h
  | cons event events ih =>
    obtain ⟨s₁, first, rest⟩ := Option.bind_eq_some_iff.mp moved
    exact ih (inv_step h first) rest

/-- However calls of `start` and `stop` and the tasks themselves take turns, one worker at most is
alive of those that were not started while a call of `stop` was waiting, and none once the task is
forgotten. Who waits for a worker waits for no more than its next turn. -/
theorem workers_owned (moved : Dispatcher.run events {} = some s) :
    (∀ w w', s.Alive w → s.Alive w' → w ∉ s.late → w' ∉ s.late → w = w') ∧
    (s.task = none → ∀ w, s.Alive w → w ∈ s.late) ∧
    ∀ w ∈ s.stopping, s.Alive w →
      ∃ s', s.step (.advance w) = some s' ∧ (s'.workers w).phase = .done := by
  have h : Inv s := inv_run inv_initial moved
  refine ⟨fun w w' alive alive' early early' => ?_, fun idle w alive => ?_, fun w mem alive => ?_⟩
  · have current := (h.owned alive).resolve_right early
    have current' := (h.owned alive').resolve_right early'
    exact Option.some.inj (current.symm.trans current')
  · refine (h.owned alive).resolve_left fun current => ?_
    cases idle.symm.trans current
  · have cancelled := (h.ending mem).resolve_left alive.2
    refine ⟨_, if_pos alive, ?_⟩
    simp [Dispatcher.setWorker, Worker.advance, cancelled]

/-- A worker is started between the end of the one before and the return of its `stop`, and goes on
after that. -/
theorem workers_owned_late : ∃ s, Dispatcher.run [.start, .advance 0, .stop, .advance 0, .start,
      .stopped 0, .advance 1, .start, .stop] {} = some s ∧ s.Alive 1 ∧ 1 ∈ s.late ∧ s.Alive 2 ∧
    2 ∉ s.late ∧ s.task = some 2 ∧
    (∀ w w', s.Alive w → s.Alive w' → w ∉ s.late → w' ∉ s.late → w = w') ∧
    (s.task = none → ∀ w, s.Alive w → w ∈ s.late) ∧
    ∀ w ∈ s.stopping, s.Alive w →
      ∃ s', s.step (.advance w) = some s' ∧ (s'.workers w).phase = .done := by
  have moved : Dispatcher.run [.start, .advance 0, .stop, .advance 0, .start, .stopped 0,
      .advance 1, .start, .stop] {} = some _ := rfl
  exact ⟨_, moved, ⟨by decide, by decide⟩, by decide, ⟨by decide, by decide⟩, by decide, rfl,
    workers_owned moved⟩

end PySwitch.OutboxWorker
