import PySwitch.Async.Termination
import PySwitch.OrphanClaims
import PySwitch.RefundLocks

namespace PySwitch

def Call.isCreate : Call → Bool
  | .create _ => true
  | _ => false

namespace Owner

open Async Program Service MemoryIdempotencyCoordinator
open Claim (Request requestOf request records Creates)

/-- The process as the calls of `create` see it, without the others. -/
def creating (s : ServiceState) : ServiceState :=
  { s with tasks := fun t => (s.tasks t).filter fun T => T.call.isCreate }

section Creating

variable {s : ServiceState} {t u : Tid} {T : ServiceTask} {w : World}

theorem creating_tasks (create : T.call.isCreate = true) (task : s.tasks t = some T) :
    (creating s).tasks t = some T := by
  simp [creating, task, create]

theorem creating_some (h : (creating s).tasks t = some T) :
    s.tasks t = some T ∧ T.call.isCreate = true := by
  simpa [creating, Option.filter_eq_some_iff] using h

theorem creating_put (create : T.call.isCreate = true) :
    creating (s.put t T w) = (creating s).put t T w := by
  unfold creating State.put
  congr 1
  funext u
  by_cases same : u = t
  · subst same
    simp [create]
  · simp [same]

theorem creating_put_other (other : T.call.isCreate = false)
    (before : ∀ U, s.tasks t = some U → U.call.isCreate = false) :
    (creating (s.put t T w)).tasks = (creating s).tasks := by
  funext u
  show (Function.update s.tasks t (some T) u).filter _ = (s.tasks u).filter _
  by_cases same : u = t
  · subst same
    rw [Function.update_self]
    cases task : s.tasks u with
    | none => exact Option.filter_some_neg (by simp [other])
    | some U =>
      rw [Option.filter_some_neg (by simp [other]),
        Option.filter_some_neg (by simp [before U task])]
  · rw [Function.update_of_ne same]

end Creating

theorem Inv.frame {cfg : Config} {w w' : World} {running v : Option Tid} {st : Statuses}
    (inv : Inv cfg w running st) (same : w'.process.idempotency = w.process.idempotency)
    (off : ∀ {t u}, st t = some u → running ≠ some t) : Inv cfg w' v st where
  wakeful := by
    rw [same]
    exact inv.wakeful
  creates := inv.creates
  suspended := fun hu hp open_ _ => by
    rw [same]
    exact inv.suspended hu hp open_ (off hu)
  held := fun hu hq hp => by
    simp only [Claim.records, same]
    exact inv.held hu hq hp
  owned := fun hr hc => by
    simp only [Claim.records, same] at hr
    exact inv.owned hr hc
  unique := inv.unique

section Step

variable {cfg : Config} {profile : Profile} (direct : cfg.coordinator = .direct)
  (memory : profile.coordinator = .memory) {s s' : ServiceState} {l : ServiceLabel}

/-- What holds of the calls of `create` alone, whatever the other calls do. -/
def Among (cfg : Config) (s : ServiceState) : Prop :=
  (discipline cfg).Kept (creating s) ∧
    Inv cfg s.world s.running ((discipline cfg).statuses (creating s))

theorem Among.frame (h : Among cfg s) (tasks : (creating s').tasks = (creating s).tasks)
    (same : s'.world.process.idempotency = s.world.process.idempotency)
    (off : ∀ {t T}, (creating s).tasks t = some T → s.running ≠ some t) : Among cfg s' := by
  have statuses : (discipline cfg).statuses (creating s') =
      (discipline cfg).statuses (creating s) := by
    unfold Discipline.statuses
    rw [tasks]
  constructor
  · intro t T task
    rw [tasks] at task
    exact h.1 t T task
  · rw [statuses]
    apply h.2.frame same
    intro t u hu
    obtain ⟨T, task, -⟩ := (discipline cfg).statuses_some hu
    exact off task

/-- A call other than `create` has no dealings with the coordinator. -/
theorem apart_of_other {A : Effect → Prop} (kept : (Locks.discipline A).Kept s) {t : Tid}
    {T : ServiceTask} {e : Effect} (task : s.tasks t = some T) (head : T.code.head = some e)
    (other : T.call.isCreate = false) (a : CoordinatorEffect) : e ≠ .coordinator a := by
  rintro rfl
  obtain ⟨k, code⟩ := Coroutine.perform_of_head head
  have follows := kept t T task
  rw [code] at follows
  have hok : Locks.ok (Locks.scope A T.call) ((Locks.discipline A).phase T) (.coordinator a) :=
    follows.1
  have scope : ¬Locks.scope A T.call (.coordinator a) := by
    cases call : T.call with
    | create data =>
      rw [call] at other
      cases other
    | _ => exact id
  generalize (Locks.discipline A).phase T = g at hok
  cases g with
  | away =>
    obtain h | h := hok
    · exact scope h
    · exact h
  | _ => exact hok

include direct memory

theorem among_step {A : Effect → Prop} (kept : (Locks.discipline A).Kept s) (h : Among cfg s)
    (moved : step (system cfg profile) l s = some s') : Among cfg s' := by
  have M : Maintains (system cfg profile) Creates (discipline cfg) (Inv cfg) :=
    maintains direct memory
  have seen {l : ServiceLabel} (meets : Creates (creating s) l)
      (moved : step (system cfg profile) l (creating s) = some (creating s')) : Among cfg s' :=
    M.step h.1 h.2 meets moved
  have alone {t : Tid} {T : ServiceTask} (task : s.tasks t = some T)
      (other : T.call.isCreate = false) {u : Tid} {U : ServiceTask}
      (hu : (creating s).tasks u = some U) : u ≠ t := by
    rintro rfl
    obtain ⟨hu, create⟩ := creating_some hu
    obtain rfl := Option.some.inj (task.symm.trans hu)
    rw [create] at other
    cases other
  cases step_moves _ moved with
  | @call t c idle new =>
    cases create : c.isCreate with
    | true =>
      apply seen (l := .call t c)
      · cases c with
        | create data => exact trivial
        | _ => cases create
      · rw [creating_put (T := Async.Task.spawn c _) create]
        have unseen : (creating s).tasks t = none := by simp [creating, new]
        exact step_call (s := creating s) _ idle unseen
    | false =>
      apply h.frame
      · apply creating_put_other (T := Async.Task.spawn c _) create
        intro U task
        cases new.symm.trans task
      · rfl
      · intro t T task
        rw [idle]
        exact fun h => by cases h
  | @reply l t T e k r w task code delivered =>
    cases create : T.call.isCreate with
    | true =>
      have at_ := creating_tasks create task
      obtain ⟨i, rfl, running, answer⟩ | ⟨i, rfl, idle, answer⟩ := delivered.answer
      · apply seen (l := .enter t i) trivial
        rw [creating_put (T := ⟨T.call, k r, _⟩) create]
        exact step_enter _ running at_ code answer.symm
      · apply seen (l := .resume t i) trivial
        rw [creating_put (T := ⟨T.call, k r, _⟩) create]
        exact step_resume _ idle at_ code answer.symm
    | false =>
      apply h.frame
      · apply creating_put_other (T := ⟨T.call, k r, _⟩) create
        intro U old
        obtain rfl := Option.some.inj (task.symm.trans old)
        exact create
      · apply (reply_touches delivered).idempotency
        exact apart_of_other kept task (by rw [code]; rfl) create
      · intro u U hu running
        exact alone task create hu (delivered.running running)
  | @wait l t T e k w task code delivered =>
    cases create : T.call.isCreate with
    | true =>
      have at_ := creating_tasks create task
      obtain ⟨i, rfl, running, answer⟩ | ⟨i, rfl, idle, answer⟩ := delivered.answer
      · apply seen (l := .enter t i) trivial
        exact step_enter_wait at_ code running answer.symm
      · apply seen (l := .resume t i) trivial
        exact step_resume_wait at_ code idle answer.symm
    | false =>
      apply h.frame
      · rfl
      · apply (wait_touches delivered).idempotency
        exact apart_of_other kept task (by rw [code]; rfl) create
      · intro u U hu running
        exact alone task create hu (delivered.running running)
  | @outside a w idle stepped =>
    apply h.frame
    · rfl
    · exact (outside_frame stepped).idempotency
    · intro t T task
      rw [idle]
      exact fun h => by cases h

/-- Every claim belongs to a call of `create` under way, whatever else the process does. -/
theorem among_reached {circuit : CircuitBreaker} {concurrency : List (Provider × ℕ)}
    (h : Reaches (system cfg profile) (fun _ _ => True) (.empty (.initial circuit concurrency)) s) :
    Among cfg s := by
  have within : cfg.coordinator.Within fun e => ∃ a, e = .coordinator a := by
    rw [direct]
    exact Coordinator.direct_within
  have apart (a : RefundLockEffect) : ¬∃ b, Effect.refundLock a = .coordinator b := by
    rintro ⟨b, hb⟩
    cases hb
  have locks := Locks.maintains cfg profile within apart
  induction h with
  | refl =>
    constructor
    · intro t T task
      cases task
    · exact inv_initial cfg circuit concurrency
  | tail before _ moved ih =>
    have kept := (locks.reaches_empty (Locks.inv_initial circuit concurrency) before).1
    exact among_step direct memory kept ih moved

end Step

end Owner

end PySwitch
