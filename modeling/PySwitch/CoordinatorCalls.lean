import PySwitch.Async.Footprint
import PySwitch.Async.Invariant
import PySwitch.Wakeup

namespace PySwitch.CoordinatorCalls

open Async MemoryIdempotencyCoordinator

/-- A coordinator by itself. Each task is one call of `acquire`, `complete` or `abort`. -/
def system : System Tid CoordinatorEffect CoordinatorEffect CoordinatorEffect.Reply
    ((e : CoordinatorEffect) × e.Reply) Input Empty MemoryIdempotencyCoordinator where
  program e := .perform e fun r => .done ⟨e, r⟩
  enter := enter
  resume := resume
  outside := nofun

abbrev CallState : Type := State Tid CoordinatorEffect CoordinatorEffect CoordinatorEffect.Reply
  ((e : CoordinatorEffect) × e.Reply) MemoryIdempotencyCoordinator

def discipline : Discipline CoordinatorEffect CoordinatorEffect CoordinatorEffect.Reply
    ((e : CoordinatorEffect) × e.Reply) Unit where
  protocol := fun call => only fun e => e = call
  first := fun _ => ()
  post := fun _ _ _ => True

abbrev Statuses : Type := Tid → Option (Status CoordinatorEffect Unit)

def asked : CoordinatorEffect → Option (RecordKey × String)
  | .acquire key fingerprint => some (key, fingerprint)
  | _ => none

def asks (st : Statuses) (t : Tid) : Option (RecordKey × String) :=
  (st t).bind fun u => asked u.call

structure Inv (c : MemoryIdempotencyCoordinator) (running : Option Tid) (st : Statuses) : Prop where
  wakeful : c.Wakeful (asks st)
  suspended : ∀ {t u}, st t = some u → u.ended = false → running ≠ some t → c.waiting t ≠ none

theorem asks_mono {st : Statuses} {t : Tid} {u : Status CoordinatorEffect Unit}
    (same : ∀ u', st t = some u' → u'.call = u.call) {t' : Tid} {x : RecordKey × String}
    (h : asks st t' = some x) : asks (Function.update st t (some u)) t' = some x := by
  obtain ⟨u', hu, ha⟩ := Option.bind_eq_some_iff.mp h
  by_cases ht : t' = t
  · subst t'
    simp only [asks, Function.update_self, Option.bind_some]
    rwa [← same u' hu]
  · simp only [asks, Function.update_of_ne ht, hu, Option.bind_some, ha]

variable {s : CallState} {l : Label Tid CoordinatorEffect Input Empty} {t : Tid}
  {e : CoordinatorEffect} {c' : MemoryIdempotencyCoordinator}

theorem delivered_wakeful {a : Answer e.Reply MemoryIdempotencyCoordinator} {st : Statuses}
    {u : Status CoordinatorEffect Unit} (h : Delivered system s l t e a)
    (awake : s.world.Wakeful (asks st)) (ht : st t = some u) (called : u.call = e) :
    a.Meets fun c' => c'.Wakeful (asks st) ∧ s.world.Minds t c' := by
  have ha (key : RecordKey) (fingerprint : String) (he : e = .acquire key fingerprint) :
      asks st t = some (key, fingerprint) := by
    simp only [asks, ht, Option.bind_some, called, he, asked]
  obtain ⟨i, -, -, rfl⟩ | ⟨i, -, -, rfl⟩ := h.answer
  · exact enter_wakeful awake ha i
  · exact resume_wakeful awake ha i

theorem wait_waiting (h : Delivered system s l t e (.wait c')) : c'.waiting t ≠ none := by
  obtain ⟨i, -, -, ha⟩ | ⟨i, -, -, ha⟩ := h.answer
  · exact enter_waiting ha.symm
  · exact resume_waiting ha.symm

/-- A task that does not run now was suspended before the step of another task. -/
theorem not_running {a : Answer e.Reply MemoryIdempotencyCoordinator}
    (h : Delivered system s l t e a) {u : Tid} (hu : u ≠ t) : s.running ≠ some u :=
  fun running => hu (h.running running)

theorem maintains : Maintains system (fun _ _ => True) discipline Inv where
  follows := fun _ => ⟨rfl, fun _ _ => trivial⟩
  call := fun {s t c b v} _ inv new hg => by
    refine ⟨inv.wakeful.mono fun t' x => asks_mono ?_, ?_⟩
    · intro u hu
      cases new.symm.trans hu
    · intro t' u hu open_ hv
      obtain ⟨rfl, rfl⟩ | ⟨-, hu⟩ := update_cases hu
      · cases hg with
        | on => exact absurd rfl hv
        | ended => cases open_
      · exact inv.suspended hu open_ nofun
  reply := fun {s l t call g e r c'} _ inv ht hok h => by
    obtain rfl : e = call := hok
    obtain ⟨awake, minds⟩ := delivered_wakeful h inv.wakeful ht rfl
    refine ⟨trivial, fun b v hg => ⟨awake.mono fun t' x => asks_mono ?_, ?_⟩⟩
    · intro u hu
      obtain rfl := Option.some.inj (ht.symm.trans hu)
      rfl
    · intro t' u hu open_ hv
      obtain ⟨rfl, rfl⟩ | ⟨hne, hu⟩ := update_cases hu
      · cases hg with
        | on => exact absurd rfl hv
        | ended => cases open_
      · rw [minds t' hne]
        exact inv.suspended hu open_ (not_running h hne)
  wait := fun {s l t call g e c'} _ inv ht hok h => by
    obtain rfl : e = call := hok
    obtain ⟨awake, minds⟩ := delivered_wakeful h inv.wakeful ht rfl
    refine ⟨awake, fun {t' u} hu open_ _ => ?_⟩
    by_cases hne : t' = t
    · subst t'
      exact wait_waiting h
    · rw [minds t' hne]
      exact inv.suspended hu open_ (not_running h hne)
  outside := fun {_ a} => nomatch a

/-- Whoever is suspended in `acquire` waits for an event that is set, or that is registered for
an unfinished record of its key with its fingerprint. -/
theorem waiter_awaited (h : Reaches system (fun _ _ => True) (.empty .empty) s)
    {key : RecordKey} {fingerprint : String} (reached : s.At t (.acquire key fingerprint))
    (suspended : s.running ≠ some t) :
    ∃ event, s.world.waiting t = some event ∧
      (s.world.isSet event = true ∨ s.world.Awaited key fingerprint event) := by
  have first : Inv .empty none fun _ => none := ⟨wakeful_empty _, nofun⟩
  obtain ⟨kept, inv⟩ := maintains.reaches_empty first h
  obtain ⟨T, task, head⟩ := reached
  have follows := kept t T task
  have hu := discipline.statuses_of_task task
  obtain ⟨call, code, trace⟩ := T
  cases code with
  | done a => cases head
  | perform e k =>
    cases head
    obtain rfl : _ = call := follows.1
    have waiting := inv.suspended hu rfl suspended
    obtain ⟨event, hw⟩ := Option.ne_none_iff_exists'.mp waiting
    obtain ⟨-, key', fingerprint', ha, hs⟩ := inv.wakeful.waiting hw
    simp only [asks, hu, Option.bind_some, Discipline.status, asked] at ha
    cases ha
    exact ⟨event, hw, hs⟩

end PySwitch.CoordinatorCalls
