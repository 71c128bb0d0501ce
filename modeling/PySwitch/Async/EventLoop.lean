import PySwitch.Async.Protocol
import Mathlib.Logic.Function.Basic

namespace PySwitch.Async

/-- How the environment answers an effect: with a reply, by suspending the task, or not at all. -/
inductive Answer (β ω : Type) where
  | reply (r : β) (w : ω)
  | wait (w : ω)
  | refuse

/-- Calls `κ` run as tasks `τ` of one event loop over a shared world `ω`. A task enters an
effect, may be suspended there, and is resumed by an input `ι` of the environment. -/
structure System (τ κ ε : Type) (ρ : ε → Type) (α ι η ω : Type) where
  program : κ → Coroutine ε ρ α
  enter : τ → (e : ε) → ι → ω → Answer (ρ e) ω
  resume : τ → (e : ε) → ι → ω → Answer (ρ e) ω
  outside : η → ω → Option ω

structure Task (κ ε : Type) (ρ : ε → Type) (α : Type) where
  call : κ
  code : Coroutine ε ρ α
  trace : List ((e : ε) × ρ e)

/-- At most one task runs at a time; every other unfinished task is suspended. -/
structure State (τ κ ε : Type) (ρ : ε → Type) (α ω : Type) where
  world : ω
  running : Option τ
  tasks : τ → Option (Task κ ε ρ α)

inductive Label (τ κ ι η : Type) where
  | call (t : τ) (c : κ)
  | enter (t : τ) (i : ι)
  | resume (t : τ) (i : ι)
  | outside (a : η)

variable {τ κ ε : Type} {ρ : ε → Type} {α ι η ω : Type}

/-- The task a label moves. -/
def Label.task : Label τ κ ι η → Option τ
  | .call t _ => some t
  | .enter t _ => some t
  | .resume t _ => some t
  | .outside _ => none

namespace Task

def spawn (c : κ) (code : Coroutine ε ρ α) : Task κ ε ρ α := ⟨c, code, []⟩

def result (T : Task κ ε ρ α) : Option α := T.code.result

end Task

namespace State

variable [DecidableEq τ]

def empty (w : ω) : State τ κ ε ρ α ω := ⟨w, none, fun _ => none⟩

def result (s : State τ κ ε ρ α ω) (t : τ) : Option α := (s.tasks t).bind Task.result

/-- Every call that was made has ended. -/
def Idle (s : State τ κ ε ρ α ω) : Prop := ∀ t T, s.tasks t = some T → T.code.isDone = true

/-- Task `t` is at effect `e`. -/
def At (s : State τ κ ε ρ α ω) (t : τ) (e : ε) : Prop :=
  ∃ T, s.tasks t = some T ∧ T.code.head = some e

/-- The effect the running task is at. -/
def current (s : State τ κ ε ρ α ω) : Option ε :=
  s.running.bind fun t => (s.tasks t).bind fun T => T.code.head

omit [DecidableEq τ] in
theorem At.current {s : State τ κ ε ρ α ω} {t : τ} {e : ε} (h : s.At t e)
    (running : s.running = some t) : s.current = some e := by
  obtain ⟨T, task, head⟩ := h
  simp only [State.current, running, task, head, Option.bind_some]

omit [DecidableEq τ] in
theorem at_of_current {s : State τ κ ε ρ α ω} {e : ε} (h : s.current = some e) :
    ∃ t, s.running = some t ∧ s.At t e := by
  obtain ⟨t, running, h⟩ := Option.bind_eq_some_iff.mp h
  obtain ⟨T, task, head⟩ := Option.bind_eq_some_iff.mp h
  exact ⟨t, running, T, task, head⟩

omit [DecidableEq τ] in
theorem At.unique {s : State τ κ ε ρ α ω} {t : τ} {e e' : ε} (h : s.At t e) (h' : s.At t e') :
    e = e' := by
  obtain ⟨T, task, head⟩ := h
  obtain ⟨T', task', head'⟩ := h'
  obtain rfl := Option.some.inj (task.symm.trans task')
  exact Option.some.inj (head.symm.trans head')

instance [DecidableEq ε] (s : State τ κ ε ρ α ω) (t : τ) (e : ε) : Decidable (s.At t e) :=
  match h : s.tasks t with
  | none => .isFalse fun ⟨_, ht, _⟩ => by rw [h] at ht; cases ht
  | some T => decidable_of_iff (T.code.head = some e)
      ⟨fun hT => ⟨T, h, hT⟩, fun ⟨_, ht, hT⟩ => Option.some.inj (h.symm.trans ht) ▸ hT⟩

def ended (s : State τ κ ε ρ α ω) (t : τ) : Bool :=
  match s.tasks t with
  | some T => T.code.isDone
  | none => true

def put (s : State τ κ ε ρ α ω) (t : τ) (T : Task κ ε ρ α) (w : ω) : State τ κ ε ρ α ω :=
  ⟨w, if T.code.isDone then none else some t, Function.update s.tasks t (some T)⟩

def deliver (s : State τ κ ε ρ α ω) (t : τ) (T : Task κ ε ρ α)
    (answer : (e : ε) → Answer (ρ e) ω) : Option (State τ κ ε ρ α ω) :=
  match T.code with
  | .done _ => none
  | .perform e k =>
    match answer e with
    | .reply r w => some (s.put t ⟨T.call, k r, T.trace ++ [⟨e, r⟩]⟩ w)
    | .wait w => some { s with world := w, running := none }
    | .refuse => none

end State

variable [DecidableEq τ] (S : System τ κ ε ρ α ι η ω)

def step : Label τ κ ι η → State τ κ ε ρ α ω → Option (State τ κ ε ρ α ω)
  | .call t c, s =>
    match s.running, s.tasks t with
    | none, none => some (s.put t (Task.spawn c (S.program c)) s.world)
    | _, _ => none
  | .enter t i, s =>
    if s.running = some t then
      (s.tasks t).bind fun T => s.deliver t T (fun e => S.enter t e i s.world)
    else none
  | .resume t i, s =>
    if s.running = none then
      (s.tasks t).bind fun T => s.deliver t T (fun e => S.resume t e i s.world)
    else none
  | .outside a, s =>
    if s.running = none then (S.outside a s.world).map (fun w => { s with world := w }) else none

def run : List (Label τ κ ι η) → State τ κ ε ρ α ω → Option (State τ κ ε ρ α ω)
  | [], s => some s
  | l :: ls, s => (step S l s).bind (run ls)

/-- Task `t` is given the answer `a` for the effect `e` by the label `l`. -/
inductive Delivered (s : State τ κ ε ρ α ω) : Label τ κ ι η → τ → (e : ε) → Answer (ρ e) ω → Prop
  | enter {t : τ} {i : ι} {e : ε} (reached : s.At t e) (running : s.running = some t) :
    Delivered s (.enter t i) t e (S.enter t e i s.world)
  | resume {t : τ} {i : ι} {e : ε} (reached : s.At t e) (idle : s.running = none) :
    Delivered s (.resume t i) t e (S.resume t e i s.world)

variable {S} in
omit [DecidableEq τ] in
theorem Delivered.answer {s : State τ κ ε ρ α ω} {l : Label τ κ ι η} {t : τ} {e : ε}
    {a : Answer (ρ e) ω} (h : Delivered S s l t e a) :
    (∃ i, l = .enter t i ∧ s.running = some t ∧ a = S.enter t e i s.world) ∨
    (∃ i, l = .resume t i ∧ s.running = none ∧ a = S.resume t e i s.world) := by
  cases h with
  | enter reached running => exact .inl ⟨_, rfl, running, rfl⟩
  | resume reached idle => exact .inr ⟨_, rfl, idle, rfl⟩

variable {S} in
omit [DecidableEq τ] in
theorem Delivered.reached {s : State τ κ ε ρ α ω} {l : Label τ κ ι η} {t : τ} {e : ε}
    {a : Answer (ρ e) ω} (h : Delivered S s l t e a) : s.At t e := by
  cases h with
  | enter reached running => exact reached
  | resume reached idle => exact reached

variable {S} in
omit [DecidableEq τ] in
theorem Delivered.running {s : State τ κ ε ρ α ω} {l : Label τ κ ι η} {t : τ} {e : ε}
    {a : Answer (ρ e) ω} (h : Delivered S s l t e a) {u : τ} (hu : s.running = some u) :
    u = t := by
  cases h with
  | enter reached running => exact Option.some.inj (hu.symm.trans running)
  | resume reached idle => rw [idle] at hu; cases hu

/-- Everything one step of the event loop can do. -/
inductive Moves (s : State τ κ ε ρ α ω) : Label τ κ ι η → State τ κ ε ρ α ω → Prop
  | call {t : τ} {c : κ} (idle : s.running = none) (new : s.tasks t = none) :
    Moves s (.call t c) (s.put t (Task.spawn c (S.program c)) s.world)
  | reply {l : Label τ κ ι η} {t : τ} {T : Task κ ε ρ α} {e : ε} {k : ρ e → Coroutine ε ρ α}
      {r : ρ e} {w : ω} (task : s.tasks t = some T) (code : T.code = .perform e k)
      (delivered : Delivered S s l t e (.reply r w)) :
    Moves s l (s.put t ⟨T.call, k r, T.trace ++ [⟨e, r⟩]⟩ w)
  | wait {l : Label τ κ ι η} {t : τ} {T : Task κ ε ρ α} {e : ε} {k : ρ e → Coroutine ε ρ α}
      {w : ω} (task : s.tasks t = some T) (code : T.code = .perform e k)
      (delivered : Delivered S s l t e (.wait w)) :
    Moves s l { s with world := w, running := none }
  | outside {a : η} {w : ω} (idle : s.running = none) (moved : S.outside a s.world = some w) :
    Moves s (.outside a) { s with world := w }

theorem deliver_moves {s s' : State τ κ ε ρ α ω} {l : Label τ κ ι η} {t : τ} {T : Task κ ε ρ α}
    {answer : (e : ε) → Answer (ρ e) ω} (task : s.tasks t = some T)
    (delivered : ∀ e, s.At t e → Delivered S s l t e (answer e))
    (h : s.deliver t T answer = some s') : Moves S s l s' := by
  unfold State.deliver at h
  split at h
  · cases h
  · rename_i e k code
    have hd := delivered e ⟨T, task, by rw [code]; rfl⟩
    split at h
    · rename_i r w ha
      cases h
      exact .reply task code (ha ▸ hd)
    · rename_i w ha
      cases h
      exact .wait task code (ha ▸ hd)
    · cases h

theorem step_moves {s s' : State τ κ ε ρ α ω} {l : Label τ κ ι η} (h : step S l s = some s') :
    Moves S s l s' := by
  cases l with
  | call t c =>
    simp only [step] at h
    split at h
    · rename_i idle new
      cases h
      exact .call idle new
    · cases h
  | enter t i =>
    simp only [step] at h
    split at h
    · rename_i running
      obtain ⟨T, task, hd⟩ := Option.bind_eq_some_iff.mp h
      exact deliver_moves S task (fun _ hat => .enter hat running) hd
    · cases h
  | resume t i =>
    simp only [step] at h
    split at h
    · rename_i idle
      obtain ⟨T, task, hd⟩ := Option.bind_eq_some_iff.mp h
      exact deliver_moves S task (fun _ hat => .resume hat idle) hd
    · cases h
  | outside a =>
    simp only [step] at h
    split at h
    · rename_i idle
      obtain ⟨w, moved, rfl⟩ := Option.map_eq_some_iff.mp h
      exact .outside idle moved
    · cases h

/-- A task goes on with the same call, and its trace only grows. -/
theorem step_task {s s' : State τ κ ε ρ α ω} {l : Label τ κ ι η} (h : step S l s = some s')
    {u : τ} {U : Task κ ε ρ α} (hu : s.tasks u = some U) :
    ∃ U', s'.tasks u = some U' ∧ U'.call = U.call ∧ U.trace <+: U'.trace := by
  cases step_moves S h with
  | @call t c idle new =>
    have hut : u ≠ t := by
      rintro rfl
      cases new.symm.trans hu
    exact ⟨U, by simpa [State.put, hut] using hu, rfl, List.prefix_refl _⟩
  | @reply l t T e k r w task code delivered =>
    by_cases hut : u = t
    · subst u
      obtain rfl := Option.some.inj (task.symm.trans hu)
      exact ⟨⟨T.call, k r, T.trace ++ [⟨e, r⟩]⟩, by simp [State.put], rfl, List.prefix_append ..⟩
    · exact ⟨U, by simpa [State.put, hut] using hu, rfl, List.prefix_refl _⟩
  | wait task code delivered => exact ⟨U, hu, rfl, List.prefix_refl _⟩
  | outside idle moved => exact ⟨U, hu, rfl, List.prefix_refl _⟩

/-- The tasks a run makes calls for. -/
def called (ls : List (Label τ κ ι η)) : List τ :=
  ls.filterMap fun l => match l with
    | .call t _ => some t
    | _ => none

theorem run_tasks {ls : List (Label τ κ ι η)} {s s' : State τ κ ε ρ α ω}
    (h : run S ls s = some s') {u : τ} (hu : s.tasks u = none) (hl : u ∉ called ls) :
    s'.tasks u = none := by
  induction ls generalizing s with
  | nil => cases h; exact hu
  | cons l ls ih =>
    obtain ⟨m, moved, rest⟩ := Option.bind_eq_some_iff.mp h
    have hm : m.tasks u = none := by
      cases step_moves S moved with
      | @call t c idle new =>
        have hut : u ≠ t := by
          rintro rfl
          exact hl (by simp [called])
        simpa [State.put, hut] using hu
      | @reply l t T e k r w task code delivered =>
        have hut : u ≠ t := by
          rintro rfl
          cases hu.symm.trans task
        simpa [State.put, hut] using hu
      | wait task code delivered => exact hu
      | outside idle stepped => exact hu
    refine ih rest hm fun hmem => hl ?_
    unfold called at hmem ⊢
    rw [List.filterMap_cons]
    split
    · exact hmem
    · exact List.mem_cons_of_mem _ hmem

theorem run_called {ls : List (Label τ κ ι η)} {w : ω} {s : State τ κ ε ρ α ω}
    (h : run S ls (.empty w) = some s) {t : τ} {T : Task κ ε ρ α} (task : s.tasks t = some T) :
    t ∈ called ls := by
  by_contra hmem
  cases (run_tasks S h rfl hmem).symm.trans task

theorem run_idle {ls : List (Label τ κ ι η)} {w : ω} {s : State τ κ ε ρ α ω}
    (h : run S ls (.empty w) = some s) (ended : ∀ t ∈ called ls, s.ended t = true) : s.Idle := by
  intro t T task
  simpa [State.ended, task] using ended t (run_called S h task)

theorem run_cons {l : Label τ κ ι η} {ls : List (Label τ κ ι η)} {s s' s'' : State τ κ ε ρ α ω}
    (first : step S l s = some s') (rest : run S ls s' = some s'') :
    run S (l :: ls) s = some s'' := by
  rw [run, first, Option.bind_some, rest]

theorem run_append (first rest : List (Label τ κ ι η)) (s : State τ κ ε ρ α ω) :
    run S (first ++ rest) s = (run S first s).bind (run S rest) := by
  induction first generalizing s with
  | nil => rfl
  | cons l first ih =>
    simp only [List.cons_append, run, Option.bind_assoc]
    exact congrArg _ (funext fun _ => ih _)

section Answered

variable {s : State τ κ ε ρ α ω} {t : τ} {T : Task κ ε ρ α} {e : ε} {i : ι} {r : ρ e} {w : ω}
  {k : ρ e → Coroutine ε ρ α}

theorem step_call {c : κ} (idle : s.running = none) (new : s.tasks t = none) :
    step S (.call t c) s = some (s.put t (Task.spawn c (S.program c)) s.world) := by
  simp only [step, idle, new]

theorem step_enter (running : s.running = some t) (task : s.tasks t = some T)
    (code : T.code = .perform e k) (answer : S.enter t e i s.world = .reply r w) :
    step S (.enter t i) s = some (s.put t ⟨T.call, k r, T.trace ++ [⟨e, r⟩]⟩ w) := by
  simp only [step, running, task, if_true, Option.bind_some, State.deliver, code, answer]

theorem step_resume (idle : s.running = none) (task : s.tasks t = some T)
    (code : T.code = .perform e k) (answer : S.resume t e i s.world = .reply r w) :
    step S (.resume t i) s = some (s.put t ⟨T.call, k r, T.trace ++ [⟨e, r⟩]⟩ w) := by
  simp only [step, idle, task, if_true, Option.bind_some, State.deliver, code, answer]

end Answered

@[simp] theorem put_world (s : State τ κ ε ρ α ω) (t : τ) (T : Task κ ε ρ α) (w : ω) :
    (s.put t T w).world = w := rfl

@[simp] theorem put_task (s : State τ κ ε ρ α ω) (t : τ) (T : Task κ ε ρ α) (w : ω) :
    (s.put t T w).tasks t = some T := by
  simp [State.put]

theorem put_running (s : State τ κ ε ρ α ω) (t : τ) {T : Task κ ε ρ α} (w : ω) {e : ε}
    {k : ρ e → Coroutine ε ρ α} (code : T.code = .perform e k) :
    (s.put t T w).running = some t := by
  simp [State.put, code, Coroutine.isDone]

theorem put_result (s : State τ κ ε ρ α ω) (t : τ) {T : Task κ ε ρ α} (w : ω) {a : α}
    (code : T.code = .done a) : (s.put t T w).result t = some a := by
  simp [State.result, Task.result, Coroutine.result, code]

/-- Reachability by steps that all meet the condition `C` in the state they start from. -/
inductive Reaches (C : State τ κ ε ρ α ω → Label τ κ ι η → Prop) (s : State τ κ ε ρ α ω) :
    State τ κ ε ρ α ω → Prop
  | refl : Reaches C s s
  | tail {s' s'' : State τ κ ε ρ α ω} {l : Label τ κ ι η} (before : Reaches C s s') (meets : C s' l)
      (moved : step S l s' = some s'') : Reaches C s s''

namespace Reaches

variable {S} {C D : State τ κ ε ρ α ω → Label τ κ ι η → Prop} {s s' s'' : State τ κ ε ρ α ω}

theorem trans (h : Reaches S C s s') (h' : Reaches S C s' s'') : Reaches S C s s'' := by
  induction h' with
  | refl => exact h
  | tail _ meets moved ih => exact ih.tail meets moved

theorem mono (hCD : ∀ s l, C s l → D s l) (h : Reaches S C s s') : Reaches S D s s' := by
  induction h with
  | refl => exact .refl
  | tail _ meets moved ih => exact ih.tail (hCD _ _ meets) moved

theorem invariant {I : State τ κ ε ρ α ω → Prop} (first : I s)
    (kept : ∀ s l s', I s → C s l → step S l s = some s' → I s') (h : Reaches S C s s') : I s' := by
  induction h with
  | refl => exact first
  | tail _ meets moved ih => exact kept _ _ _ ih meets moved

/-- What holds in every state reached can be assumed of the steps. -/
theorem along {K : State τ κ ε ρ α ω → Prop} (h : Reaches S C s s')
    (always : ∀ u, Reaches S C s u → K u) : Reaches S (fun u l => C u l ∧ K u) s s' := by
  induction h with
  | refl => exact .refl
  | tail before meets moved ih => exact ih.tail ⟨meets, always _ before⟩ moved

theorem task (h : Reaches S C s s') {u : τ} {U : Task κ ε ρ α} (hu : s.tasks u = some U) :
    ∃ U', s'.tasks u = some U' ∧ U'.call = U.call ∧ U.trace <+: U'.trace := by
  induction h with
  | refl => exact ⟨U, hu, rfl, List.prefix_refl _⟩
  | tail _ _ moved ih =>
    obtain ⟨V, hv, call, trace⟩ := ih
    obtain ⟨V', hv', call', trace'⟩ := step_task S moved hv
    exact ⟨V', hv', call'.trans call, trace.trans trace'⟩

/-- A task has come to its code by the replies of its trace. -/
theorem leads {w : ω} (h : Reaches S C (.empty w) s) {t : τ} {T : Task κ ε ρ α}
    (task : s.tasks t = some T) : (S.program T.call).Leads T.trace T.code := by
  induction h generalizing t T with
  | refl => cases task
  | @tail s s' l before meets moved ih =>
    cases step_moves S moved with
    | @call u c idle new =>
      by_cases hu : t = u
      · subst hu
        obtain rfl : Task.spawn c (S.program c) = T := by simpa [State.put] using task
        exact .refl _
      · exact ih (by simpa [State.put, hu] using task)
    | @reply l u U e k r w old code delivered =>
      by_cases hu : t = u
      · subst hu
        obtain rfl : ⟨U.call, k r, U.trace ++ [⟨e, r⟩]⟩ = T := by simpa [State.put] using task
        have leads := ih old
        rw [code] at leads
        exact leads.concat r
      · exact ih (by simpa [State.put, hu] using task)
    | wait old code delivered => exact ih task
    | outside idle stepped => exact ih task

end Reaches

/-- The condition `C` holds at every step of the run of `ls`. -/
def Throughout (C : State τ κ ε ρ α ω → Label τ κ ι η → Prop) :
    List (Label τ κ ι η) → State τ κ ε ρ α ω → Prop
  | [], _ => True
  | l :: ls, s => C s l ∧ ∀ s', step S l s = some s' → Throughout C ls s'

/-- A condition that can be checked at a step can be checked throughout a run. -/
def Throughout.check (C : State τ κ ε ρ α ω → Label τ κ ι η → Prop) [∀ s l, Decidable (C s l)] :
    (ls : List (Label τ κ ι η)) → (s : State τ κ ε ρ α ω) → Decidable (Throughout S C ls s)
  | [], _ => .isTrue trivial
  | l :: ls, s =>
    match h : step S l s with
    | none => decidable_of_iff (C s l)
        ⟨fun meets => ⟨meets, fun _ moved => by cases h.symm.trans moved⟩, And.left⟩
    | some s' =>
      have := Throughout.check C ls s'
      decidable_of_iff (C s l ∧ Throughout S C ls s')
        ⟨fun meets => ⟨meets.1, fun _ moved => Option.some.inj (h.symm.trans moved) ▸ meets.2⟩,
          fun meets => ⟨meets.1, meets.2 s' h⟩⟩

instance (C : State τ κ ε ρ α ω → Label τ κ ι η → Prop) [∀ s l, Decidable (C s l)]
    (ls : List (Label τ κ ι η)) (s : State τ κ ε ρ α ω) : Decidable (Throughout S C ls s) :=
  Throughout.check S C ls s

theorem throughout_of_forall {C : State τ κ ε ρ α ω → Label τ κ ι η → Prop}
    {ls : List (Label τ κ ι η)} (h : ∀ l ∈ ls, ∀ s, C s l) (s : State τ κ ε ρ α ω) :
    Throughout S C ls s := by
  induction ls generalizing s with
  | nil => trivial
  | cons l ls ih =>
    exact ⟨h l (List.mem_cons_self ..) s,
      fun s' _ => ih (fun l hl => h l (List.mem_cons_of_mem _ hl)) s'⟩

theorem throughout_of_before {C : State τ κ ε ρ α ω → Label τ κ ι η → Prop}
    {ls : List (Label τ κ ι η)} {s : State τ κ ε ρ α ω}
    (h : ∀ before l v, before ++ [l] <+: ls → run S before s = some v → C v l) :
    Throughout S C ls s := by
  induction ls generalizing s with
  | nil => trivial
  | cons l ls ih =>
    refine ⟨h [] l s ⟨ls, rfl⟩ rfl, fun m moved => ih ?_⟩
    intro before l' v shorter hv
    exact h (l :: before) l' v (List.cons_prefix_cons.mpr ⟨rfl, shorter⟩) (run_cons S moved hv)

variable {S} in
theorem Throughout.before {C : State τ κ ε ρ α ω → Label τ κ ι η → Prop}
    {ls first : List (Label τ κ ι η)} {l : Label τ κ ι η} {s u : State τ κ ε ρ α ω}
    (h : Throughout S C ls s) (earlier : first ++ [l] <+: ls) (hu : run S first s = some u) :
    C u l := by
  induction first generalizing ls s with
  | nil =>
    obtain rfl := Option.some.inj hu
    obtain ⟨rest, rfl⟩ := earlier
    exact h.1
  | cons x first ih =>
    obtain ⟨rest, rfl⟩ := earlier
    obtain ⟨m, moved, hu⟩ := Option.bind_eq_some_iff.mp hu
    exact ih (h.2 m moved) ⟨rest, rfl⟩ hu

theorem run_reaches {C : State τ κ ε ρ α ω → Label τ κ ι η → Prop} {ls : List (Label τ κ ι η)}
    {s s' : State τ κ ε ρ α ω} (hC : Throughout S C ls s) (h : run S ls s = some s') :
    Reaches S C s s' := by
  induction ls generalizing s with
  | nil =>
    cases h
    exact .refl
  | cons l ls ih =>
    obtain ⟨u, moved, rest⟩ := Option.bind_eq_some_iff.mp h
    exact (Reaches.refl.tail hC.1 moved).trans (ih (hC.2 u moved) rest)

theorem run_leads {ls : List (Label τ κ ι η)} {w : ω} {s : State τ κ ε ρ α ω}
    (h : run S ls (.empty w) = some s) {t : τ} {T : Task κ ε ρ α} (task : s.tasks t = some T) :
    (S.program T.call).Leads T.trace T.code := by
  have free : Throughout S (fun _ _ => True) ls (.empty w) :=
    throughout_of_forall S (fun _ _ _ => trivial) _
  exact (run_reaches S free h).leads task

/-- What a task cannot change while it runs still holds when it is done. -/
theorem run_settles {P : State τ κ ε ρ α ω → Prop}
    (kept : ∀ s l s', s.running ≠ none → P s → step S l s = some s' → P s')
    {ls : List (Label τ κ ι η)} {s s' : State τ κ ε ρ α ω} (h : run S ls s = some s')
    (idle : s'.running = none) (first : P s) :
    ∃ n u, run S (ls.take n) s = some u ∧ u.running = none ∧ P u := by
  induction ls generalizing s with
  | nil =>
    obtain rfl := Option.some.inj h
    exact ⟨0, s, rfl, idle, first⟩
  | cons l ls ih =>
    by_cases busy : s.running = none
    · exact ⟨0, s, rfl, busy, first⟩
    · obtain ⟨m, moved, rest⟩ := Option.bind_eq_some_iff.mp h
      obtain ⟨n, u, hu, settled⟩ := ih rest (kept s l m busy first moved)
      exact ⟨n + 1, u, run_cons S moved hu, settled⟩

/-- Run the labels while every step meets a condition that can be checked. -/
def runWhile (C : State τ κ ε ρ α ω → Label τ κ ι η → Prop) [∀ s l, Decidable (C s l)] :
    List (Label τ κ ι η) → State τ κ ε ρ α ω → Option (State τ κ ε ρ α ω)
  | [], s => some s
  | l :: ls, s => if C s l then (step S l s).bind (runWhile C ls) else none

theorem runWhile_reaches {C : State τ κ ε ρ α ω → Label τ κ ι η → Prop} [∀ s l, Decidable (C s l)]
    {ls : List (Label τ κ ι η)} {s s' : State τ κ ε ρ α ω} (h : runWhile S C ls s = some s') :
    Reaches S C s s' := by
  induction ls generalizing s with
  | nil =>
    cases h
    exact .refl
  | cons l ls ih =>
    rw [runWhile] at h
    split at h
    · rename_i meets
      obtain ⟨u, moved, rest⟩ := Option.bind_eq_some_iff.mp h
      exact (Reaches.refl.tail meets moved).trans (ih rest)
    · cases h

theorem runWhile_run {C : State τ κ ε ρ α ω → Label τ κ ι η → Prop} [∀ s l, Decidable (C s l)]
    {ls : List (Label τ κ ι η)} {s s' : State τ κ ε ρ α ω} (h : runWhile S C ls s = some s') :
    run S ls s = some s' := by
  induction ls generalizing s with
  | nil => exact h
  | cons l ls ih =>
    rw [runWhile] at h
    split at h
    · obtain ⟨u, moved, rest⟩ := Option.bind_eq_some_iff.mp h
      exact run_cons S moved (ih rest)
    · cases h

/-- A run that only makes calls for the tasks `ts` meets what can be checked of these. -/
theorem runWhile_within {C D : State τ κ ε ρ α ω → Label τ κ ι η → Prop} [∀ s l, Decidable (C s l)]
    {ts : List τ} (checks : ∀ s l, (∀ u, s.tasks u ≠ none → u ∈ ts) → C s l → D s l)
    {ls : List (Label τ κ ι η)} {s s' : State τ κ ε ρ α ω}
    (known : ∀ u, s.tasks u ≠ none → u ∈ ts) (calls : ∀ t ∈ called ls, t ∈ ts)
    (h : runWhile S C ls s = some s') : Reaches S D s s' := by
  induction ls generalizing s with
  | nil =>
    cases h
    exact .refl
  | cons l ls ih =>
    rw [runWhile] at h
    split at h
    · rename_i meets
      obtain ⟨m, moved, rest⟩ := Option.bind_eq_some_iff.mp h
      refine (Reaches.refl.tail (checks s l known meets) moved).trans (ih ?_ ?_ rest)
      · intro u hu
        by_contra out
        have single : run S [l] s = some m := run_cons _ moved rfl
        have unknown : s.tasks u = none := by
          by_contra task
          exact out (known u task)
        refine hu (run_tasks _ single unknown fun called => out (calls u ?_))
        cases l with
        | call t c => simpa [Async.called] using Or.inl (by simpa [Async.called] using called)
        | _ => cases called
      · intro t ht
        apply calls t
        cases l with
        | call u c => exact List.mem_cons_of_mem _ ht
        | _ => exact ht
    · cases h

end PySwitch.Async
