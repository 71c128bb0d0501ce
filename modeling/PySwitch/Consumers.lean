import PySwitch.Async.Invariant
import PySwitch.Semaphore
import Mathlib.Data.List.Nodup

namespace PySwitch

open Async Program

inductive ConsumerEffect where
  | lock
  | isSeen (eventId : Uuid)
  | record (event : EventEnvelope)
  | effect (event : EventEnvelope)
  | release
  deriving DecidableEq

@[reducible] def ConsumerEffect.Reply : ConsumerEffect → Type
  | .lock => Except Exn Unit
  | .isSeen _ => Bool
  | .record _ => Unit
  | .effect _ => Except Exn Unit
  | .release => Unit

namespace IdempotentRecordingConsumer

abbrev Consuming (α : Type) : Type := Program ConsumerEffect ConsumerEffect.Reply Unit Exn α

abbrev perform (e : ConsumerEffect) : Consuming e.Reply := Program.effect e

/-- A consumer may have been made without an effect. -/
def consume (hasEffect : Bool) (event : EventEnvelope) : Consuming Bool := do
  await (perform .lock)
  ensure (do
    let seen ← perform (.isSeen event.id)
    if seen then pure false
    else do
      perform (.record event)
      onlyIf hasEffect (await (perform (.effect event)))
      pure true)
    (perform .release)

end IdempotentRecordingConsumer

/-- A consumer, and which calls of its effect have completed normally. -/
structure ConsumerWorld where
  seen : List Uuid
  events : List EventEnvelope
  guard : Semaphore
  calls : List (Uuid × Bool)

namespace ConsumerWorld

def initial : ConsumerWorld := ⟨[], [], .make 1, []⟩

def record (w : ConsumerWorld) (event : EventEnvelope) : ConsumerWorld :=
  { w with seen := event.id :: w.seen, events := w.events ++ [event] }

def note (w : ConsumerWorld) (event : EventEnvelope) (completed : Bool) : ConsumerWorld :=
  { w with calls := w.calls ++ [(event.id, completed)] }

def called (w : ConsumerWorld) : List Uuid := w.calls.map Prod.fst

/-- How often the effect has completed normally for an event. -/
def completions (w : ConsumerWorld) (eventId : Uuid) : ℕ := w.calls.count (eventId, true)

end ConsumerWorld

namespace ConsumerEffect

/-- The lock is the only place where a task can be suspended or cancelled. -/
def enter (t : Tid) : (e : ConsumerEffect) → Input → ConsumerWorld → Answer e.Reply ConsumerWorld
  | .lock, i, w => (Semaphore.enter t i w.guard).lift fun guard => { w with guard }
  | .isSeen eventId, .go, w => .reply (w.seen.contains eventId) w
  | .record event, .go, w => .reply () (w.record event)
  | .effect event, .done (.ok ()), w => .reply (.ok ()) (w.note event true)
  | .effect event, .done (.error x), w => .reply (.error x) (w.note event false)
  | .release, .go, w => .reply () { w with guard := w.guard.release t }
  | _, _, _ => .refuse

def resume (t : Tid) : (e : ConsumerEffect) → Input → ConsumerWorld → Answer e.Reply ConsumerWorld
  | .lock, i, w => (Semaphore.resume t i w.guard).lift fun guard => { w with guard }
  | _, _, _ => .refuse

end ConsumerEffect

/-- Any number of deliveries to one consumer, each of them a task. -/
def consuming (hasEffect : Bool) : System Tid EventEnvelope ConsumerEffect ConsumerEffect.Reply
    (Except Exn Bool) Input Empty ConsumerWorld where
  program event := (IdempotentRecordingConsumer.consume hasEffect event).start ()
  enter := ConsumerEffect.enter
  resume := ConsumerEffect.resume
  outside a _ := a.elim

namespace Redelivery

open IdempotentRecordingConsumer

/-- How far a delivery has come. -/
inductive Stage where
  | before
  | inside
  | fresh
  | recorded
  | leaving (answer : Except Exn Bool)
  | finished (answer : Except Exn Bool)

namespace Stage

/-- The task is in the guarded block. -/
def Inside : Stage → Prop
  | .before => False
  | .finished _ => False
  | _ => True

def answer : Stage → Option (Except Exn Bool)
  | .leaving r => some r
  | .finished r => some r
  | _ => none

end Stage

def ok (event : EventEnvelope) : Stage → ConsumerEffect → Prop
  | .before, .lock => True
  | .inside, .isSeen eventId => eventId = event.id
  | .fresh, .record recorded => recorded = event
  | .recorded, .effect passed => passed = event
  | .leaving _, .release => True
  | _, _ => False

def next : Stage → (e : ConsumerEffect) → e.Reply → Stage
  | .before, .lock, .ok _ => .inside
  | .before, .lock, .error x => .finished (.error x)
  | .inside, .isSeen _, true => .leaving (.ok false)
  | .inside, .isSeen _, false => .fresh
  | .fresh, .record _, _ => .recorded
  | .recorded, .effect _, .ok _ => .leaving (.ok true)
  | .recorded, .effect _, .error x => .leaving (.error x)
  | .leaving r, .release, _ => .finished r
  | g, _, _ => g

def protocol (event : EventEnvelope) : Protocol ConsumerEffect ConsumerEffect.Reply Stage :=
  ⟨ok event, fun _ _ _ => True, next⟩

def discipline :
    Discipline EventEnvelope ConsumerEffect ConsumerEffect.Reply (Except Exn Bool) Stage :=
  ⟨protocol, fun _ => .before, fun _ a g => g = .finished a⟩

theorem consume_wp (event : EventEnvelope) :
    wp (protocol event) (consume true event) (fun r _ g => g = .finished r) () .before := by
  simp only [consume, wp_bind, wp_await, wp_effect]
  refine ⟨trivial, fun locked _ => ?_⟩
  cases locked with
  | error x => rfl
  | ok _ =>
    simp only [orRaise_ok, wp_ensure, wp_bind, wp_effect]
    refine ⟨rfl, fun seen _ => ?_⟩
    cases seen with
    | true => exact ⟨trivial, fun _ _ => rfl⟩
    | false =>
      refine ⟨rfl, fun _ _ => ?_⟩
      refine ⟨rfl, fun passed _ => ?_⟩
      cases passed with
      | error x => exact ⟨trivial, fun _ _ => rfl⟩
      | ok _ => exact ⟨trivial, fun _ _ => rfl⟩

abbrev ConsumerState : Type :=
  State Tid EventEnvelope ConsumerEffect ConsumerEffect.Reply (Except Exn Bool) ConsumerWorld

abbrev ConsumerLabel : Type := Label Tid EventEnvelope Input Empty

abbrev Statuses : Type := Tid → Option (Status EventEnvelope Stage)

/-- An event is seen when the effect was called for it or is about to be, and an event for which
a delivery has returned is one the effect was called for. -/
structure Inv (w : ConsumerWorld) (running : Option Tid) (st : Statuses) : Prop where
  alone : ∀ {t u}, st t = some u → u.phase.Inside → running = some t
  once : w.called.Nodup
  seen : ∀ id ∈ w.called, id ∈ w.seen
  known : ∀ id ∈ w.seen, id ∈ w.called ∨
    ∃ t u, st t = some u ∧ u.phase = .recorded ∧ u.call.id = id
  fresh : ∀ {t u}, st t = some u → u.phase = .fresh → u.call.id ∉ w.seen
  recorded : ∀ {t u}, st t = some u → u.phase = .recorded →
    u.call.id ∈ w.seen ∧ u.call.id ∉ w.called
  answered : ∀ {t u b}, st t = some u → u.phase.answer = some (.ok b) → u.call.id ∈ w.called

/-- What an effect does to the consumer. -/
inductive Moved (w : ConsumerWorld) : (e : ConsumerEffect) → e.Reply → ConsumerWorld → Prop
  | locked {r : Except Exn Unit} {guard : Semaphore} : Moved w .lock r { w with guard }
  | looked {eventId : Uuid} : Moved w (.isSeen eventId) (w.seen.contains eventId) w
  | recorded {event : EventEnvelope} : Moved w (.record event) () (w.record event)
  | completed {event : EventEnvelope} : Moved w (.effect event) (.ok ()) (w.note event true)
  | raised {event : EventEnvelope} {x : Exn} :
    Moved w (.effect event) (.error x) (w.note event false)
  | released {guard : Semaphore} : Moved w .release () { w with guard }

section Step

variable {s : ConsumerState} {l : ConsumerLabel} {t : Tid} {e : ConsumerEffect} {r : e.Reply}
  {w : ConsumerWorld} {g : Stage} {event : EventEnvelope}

theorem enter_moved {i : Input} {w w' : ConsumerWorld} (h : e.enter t i w = .reply r w') :
    Moved w e r w' := by
  cases e with
  | lock =>
    obtain ⟨guard, -, rfl⟩ := Answer.lift_reply h
    exact .locked
  | isSeen eventId =>
    cases i with
    | go => cases h; exact .looked
    | _ => cases h
  | record recorded =>
    cases i with
    | go => cases h; exact .recorded
    | _ => cases h
  | effect passed =>
    cases i with
    | done answer =>
      cases answer with
      | ok _ => cases h; exact .completed
      | error x => cases h; exact .raised
    | _ => cases h
  | release =>
    cases i with
    | go => cases h; exact .released
    | _ => cases h

theorem resume_moved {i : Input} {w w' : ConsumerWorld} (h : e.resume t i w = .reply r w') :
    Moved w e r w' := by
  cases e with
  | lock =>
    obtain ⟨guard, -, rfl⟩ := Answer.lift_reply h
    exact .locked
  | _ => cases h

theorem reply_moved (h : Delivered (consuming true) s l t e (.reply r w)) :
    Moved s.world e r w := by
  obtain ⟨i, -, -, ha⟩ | ⟨i, -, -, ha⟩ := h.answer
  · exact enter_moved ha.symm
  · exact resume_moved ha.symm

/-- Only a task that waits for the lock is suspended. -/
theorem wait_lock (h : Delivered (consuming true) s l t e (.wait w)) :
    e = .lock ∧ ∃ guard, w = { s.world with guard } := by
  obtain ⟨i, -, -, ha⟩ | ⟨i, -, -, ha⟩ := h.answer
  · cases e with
    | lock =>
      obtain ⟨guard, -, rfl⟩ := Answer.lift_wait ha.symm
      exact ⟨rfl, guard, rfl⟩
    | effect passed =>
      cases i with
      | done answer => cases answer <;> cases ha
      | _ => cases ha
    | _ => cases i <;> cases ha
  · cases e with
    | lock =>
      obtain ⟨guard, -, rfl⟩ := Answer.lift_wait ha.symm
      exact ⟨rfl, guard, rfl⟩
    | _ => cases ha

theorem Inv.others {hasEffect : Bool} {a : Answer (ConsumerEffect.Reply e) ConsumerWorld}
    (inv : Inv s.world s.running (discipline.statuses s))
    (h : Delivered (consuming hasEffect) s l t e a) {u : Tid} {x : Status EventEnvelope Stage}
    (hu : discipline.statuses s u = some x) (other : u ≠ t) : ¬ x.phase.Inside :=
  fun inside => other (h.running (inv.alone hu inside))

theorem Inv.known_update (inv : Inv s.world s.running (discipline.statuses s))
    (ht : discipline.statuses s t = some ⟨event, g, false⟩) (notYet : g ≠ .recorded) (g' : Stage)
    (b : Bool) {id : Uuid} (hid : id ∈ s.world.seen) : id ∈ s.world.called ∨
      ∃ u x, Function.update (discipline.statuses s) t (some ⟨event, g', b⟩) u = some x ∧
        x.phase = .recorded ∧ x.call.id = id := by
  obtain hc | ⟨u, x, hu, phase, call⟩ := inv.known id hid
  · exact .inl hc
  · have other : u ≠ t := by
      rintro rfl
      obtain rfl := Option.some.inj (ht.symm.trans hu)
      exact notYet phase
    exact .inr ⟨u, x, by simpa [other] using hu, phase, call⟩

theorem called_note (w : ConsumerWorld) (event : EventEnvelope) (completed : Bool) :
    (w.note event completed).called = w.called ++ [event.id] := by
  simp [ConsumerWorld.note, ConsumerWorld.called]

theorem inv_call {b : Bool} {v : Option Tid} (inv : Inv s.world none (discipline.statuses s))
    (ht : discipline.statuses s t = none) :
    Inv s.world v (Function.update (discipline.statuses s) t (some ⟨event, .before, b⟩)) where
  alone := fun hu inside => by
    obtain ⟨rfl, rfl⟩ | ⟨-, hu⟩ := update_cases hu
    · exact inside.elim
    · cases inv.alone hu inside
  once := inv.once
  seen := inv.seen
  known := fun id hid => by
    obtain hc | ⟨u, x, hu, phase, call⟩ := inv.known id hid
    · exact .inl hc
    · have other : u ≠ t := by
        rintro rfl
        cases ht.symm.trans hu
      exact .inr ⟨u, x, by simpa [other] using hu, phase, call⟩
  fresh := fun hu phase => by
    obtain ⟨rfl, rfl⟩ | ⟨-, hu⟩ := update_cases hu
    · cases phase
    · exact inv.fresh hu phase
  recorded := fun hu phase => by
    obtain ⟨rfl, rfl⟩ | ⟨-, hu⟩ := update_cases hu
    · cases phase
    · exact inv.recorded hu phase
  answered := fun hu answer => by
    obtain ⟨rfl, rfl⟩ | ⟨-, hu⟩ := update_cases hu
    · cases answer
    · exact inv.answered hu answer

/-- A step that calls no effect and records no event keeps the invariant when its task comes to
a stage where nothing has to be shown but what the task has seen for itself. -/
theorem inv_quiet {b : Bool} {v : Option Tid} {g' : Stage} {guard : Semaphore}
    (inv : Inv s.world s.running (discipline.statuses s))
    (ht : discipline.statuses s t = some ⟨event, g, false⟩) (notYet : g ≠ .recorded)
    (alone : ∀ {u x}, Function.update (discipline.statuses s) t (some ⟨event, g', b⟩) u = some x →
      x.phase.Inside → v = some u)
    (fresh : g' = .fresh → event.id ∉ s.world.seen) (recorded : g' ≠ .recorded)
    (answered : ∀ a, g'.answer = some (.ok a) → event.id ∈ s.world.called) :
    Inv { s.world with guard } v
      (Function.update (discipline.statuses s) t (some ⟨event, g', b⟩)) where
  alone := alone
  once := inv.once
  seen := inv.seen
  known := fun id hid => inv.known_update ht notYet g' b hid
  fresh := fun hu phase => by
    obtain ⟨rfl, rfl⟩ | ⟨-, hu⟩ := update_cases hu
    · exact fresh phase
    · exact inv.fresh hu phase
  recorded := fun hu phase => by
    obtain ⟨rfl, rfl⟩ | ⟨-, hu⟩ := update_cases hu
    · exact absurd phase recorded
    · exact inv.recorded hu phase
  answered := fun hu answer => by
    obtain ⟨rfl, rfl⟩ | ⟨-, hu⟩ := update_cases hu
    · exact answered _ answer
    · exact inv.answered hu answer

theorem inv_record {b : Bool} {v : Option Tid}
    (inv : Inv s.world s.running (discipline.statuses s))
    (ht : discipline.statuses s t = some ⟨event, .fresh, false⟩)
    (others : ∀ {u x}, discipline.statuses s u = some x → u ≠ t → ¬ x.phase.Inside)
    (alone : ∀ {u x}, Function.update (discipline.statuses s) t (some ⟨event, .recorded, b⟩) u =
      some x → x.phase.Inside → v = some u) :
    Inv (s.world.record event) v
      (Function.update (discipline.statuses s) t (some ⟨event, .recorded, b⟩)) where
  alone := alone
  once := inv.once
  seen := fun id hid => List.mem_cons_of_mem _ (inv.seen id hid)
  known := fun id hid => by
    obtain rfl | hid := List.mem_cons.mp hid
    · exact .inr ⟨t, _, Function.update_self .., rfl, rfl⟩
    · exact inv.known_update ht (fun h => by cases h) _ b hid
  fresh := fun hu phase => by
    obtain ⟨rfl, rfl⟩ | ⟨other, hu⟩ := update_cases hu
    · cases phase
    · exact absurd (by rw [phase]; trivial) (others hu other)
  recorded := fun hu phase => by
    obtain ⟨rfl, rfl⟩ | ⟨other, hu⟩ := update_cases hu
    · refine ⟨List.mem_cons_self .., fun called => ?_⟩
      exact inv.fresh ht rfl (inv.seen _ called)
    · exact absurd (by rw [phase]; trivial) (others hu other)
  answered := fun hu answer => by
    obtain ⟨rfl, rfl⟩ | ⟨other, hu⟩ := update_cases hu
    · cases answer
    · exact inv.answered hu answer

theorem inv_note {b completed : Bool} {v : Option Tid} {r : Except Exn Bool}
    (inv : Inv s.world s.running (discipline.statuses s))
    (ht : discipline.statuses s t = some ⟨event, .recorded, false⟩)
    (others : ∀ {u x}, discipline.statuses s u = some x → u ≠ t → ¬ x.phase.Inside)
    (alone : ∀ {u x}, Function.update (discipline.statuses s) t (some ⟨event, .leaving r, b⟩) u =
      some x → x.phase.Inside → v = some u) :
    Inv (s.world.note event completed) v
      (Function.update (discipline.statuses s) t (some ⟨event, .leaving r, b⟩)) where
  alone := alone
  once := by
    rw [called_note]
    apply List.nodup_append.mpr
    refine ⟨inv.once, List.nodup_singleton _, fun id hid other hother => ?_⟩
    obtain rfl := List.mem_singleton.mp hother
    rintro rfl
    exact (inv.recorded ht rfl).2 hid
  seen := fun id hid => by
    rw [called_note, List.mem_append, List.mem_singleton] at hid
    obtain hid | rfl := hid
    · exact inv.seen id hid
    · exact (inv.recorded ht rfl).1
  known := fun id hid => by
    rw [called_note, List.mem_append, List.mem_singleton]
    obtain hc | ⟨u, x, hu, phase, rfl⟩ := inv.known id hid
    · exact .inl (.inl hc)
    · by_cases other : u = t
      · subst other
        obtain rfl := Option.some.inj (ht.symm.trans hu)
        exact .inl (.inr rfl)
      · exact absurd (by rw [phase]; trivial) (others hu other)
  fresh := fun hu phase => by
    obtain ⟨rfl, rfl⟩ | ⟨other, hu⟩ := update_cases hu
    · cases phase
    · exact absurd (by rw [phase]; trivial) (others hu other)
  recorded := fun hu phase => by
    obtain ⟨rfl, rfl⟩ | ⟨other, hu⟩ := update_cases hu
    · cases phase
    · exact absurd (by rw [phase]; trivial) (others hu other)
  answered := fun hu answer => by
    rw [called_note, List.mem_append, List.mem_singleton]
    obtain ⟨rfl, rfl⟩ | ⟨other, hu⟩ := update_cases hu
    · exact .inr rfl
    · exact .inl (inv.answered hu answer)

theorem inv_reply (inv : Inv s.world s.running (discipline.statuses s))
    (ht : discipline.statuses s t = some ⟨event, g, false⟩) (hok : ok event g e)
    (h : Delivered (consuming true) s l t e (.reply r w)) {b : Bool} {v : Option Tid}
    (hg : Goes discipline t event (next g e r) b v) :
    Inv w v (Function.update (discipline.statuses s) t (some ⟨event, next g e r, b⟩)) := by
  have others {u : Tid} {x : Status EventEnvelope Stage} (hu : discipline.statuses s u = some x)
      (other : u ≠ t) : ¬ x.phase.Inside := inv.others h hu other
  have alone {u : Tid} {x : Status EventEnvelope Stage} (hu : Function.update
      (discipline.statuses s) t (some ⟨event, next g e r, b⟩) u = some x)
      (inside : x.phase.Inside) : v = some u := by
    obtain ⟨rfl, rfl⟩ | ⟨other, hu⟩ := update_cases hu
    · cases hg with
      | on => rfl
      | ended post => exact absurd inside (by rw [show next g e r = .finished _ from post]; exact id)
    · exact absurd inside (others hu other)
  cases reply_moved h with
  | @locked r guard =>
    cases g with
    | before =>
      cases r <;> exact inv_quiet inv ht nofun alone nofun nofun nofun
    | _ => exact hok.elim
  | @looked eventId =>
    cases g with
    | inside =>
      obtain rfl : eventId = event.id := hok
      have called (seen : event.id ∈ s.world.seen) : event.id ∈ s.world.called := by
        obtain hc | ⟨u, x, hu, phase, -⟩ := inv.known event.id seen
        · exact hc
        · have other : u ≠ t := by
            rintro rfl
            obtain rfl := Option.some.inj (ht.symm.trans hu)
            cases phase
          exact absurd (by rw [phase]; trivial) (others hu other)
      by_cases seen : event.id ∈ s.world.seen
      · have found : s.world.seen.contains event.id = true := List.contains_iff_mem.mpr seen
        rw [found] at alone ⊢
        exact inv_quiet inv ht nofun alone nofun nofun fun _ _ => called seen
      · have absent : s.world.seen.contains event.id = false := by simpa using seen
        rw [absent] at alone ⊢
        exact inv_quiet inv ht nofun alone (fun _ => seen) nofun nofun
    | _ => exact hok.elim
  | @recorded other =>
    cases g with
    | fresh =>
      obtain rfl : other = event := hok
      exact inv_record inv ht others alone
    | _ => exact hok.elim
  | @completed other =>
    cases g with
    | recorded =>
      obtain rfl : other = event := hok
      exact inv_note inv ht others alone
    | _ => exact hok.elim
  | @raised other x =>
    cases g with
    | recorded =>
      obtain rfl : other = event := hok
      exact inv_note inv ht others alone
    | _ => exact hok.elim
  | @released guard =>
    cases g with
    | leaving answer =>
      exact inv_quiet inv ht nofun alone nofun nofun fun a ha => inv.answered ht ha
    | _ => exact hok.elim

theorem inv_wait (inv : Inv s.world s.running (discipline.statuses s))
    (ht : discipline.statuses s t = some ⟨event, g, false⟩) (hok : ok event g e)
    (h : Delivered (consuming true) s l t e (.wait w)) : Inv w none (discipline.statuses s) := by
  obtain ⟨rfl, guard, rfl⟩ := wait_lock h
  refine ⟨fun {u x} hu inside => ?_, inv.once, inv.seen, inv.known, inv.fresh, inv.recorded,
    inv.answered⟩
  by_cases other : u = t
  · subst other
    obtain rfl := Option.some.inj (ht.symm.trans hu)
    cases g with
    | before => exact inside.elim
    | _ => exact hok.elim
  · exact absurd inside (inv.others h hu other)

end Step

theorem maintains : Maintains (consuming true) (fun _ _ => True) discipline Inv where
  follows := fun event => start_follows (consume_wp event)
  call := fun _ inv new _ => inv_call inv new
  reply := fun _ inv ht hok h => ⟨trivial, fun _ _ hg => inv_reply inv ht hok h hg⟩
  wait := fun _ inv ht hok h => inv_wait inv ht hok h
  outside := fun {_ a _} _ _ _ => a.elim

/-- No delivery comes to ask for an event whose effect has been called and has raised. -/
def Unfailed (s : ConsumerState) (_ : ConsumerLabel) : Prop :=
  ∀ id, s.current = some (.isSeen id) → (id, false) ∉ s.world.calls

/-- A delivery that has returned, whatever it returned, leaves a completed effect behind. -/
def Completed (w : ConsumerWorld) (_ : Option Tid) (st : Statuses) : Prop :=
  ∀ t u b, st t = some u → u.phase.answer = some (.ok b) → (u.call.id, true) ∈ w.calls

theorem calls_grow {s s' : ConsumerState} {l : ConsumerLabel}
    (h : step (consuming true) l s = some s') :
    ∀ call ∈ s.world.calls, call ∈ s'.world.calls := by
  intro call hc
  cases step_moves _ h with
  | call => exact hc
  | reply task code delivered =>
    cases reply_moved delivered with
    | completed => exact List.mem_append_left _ hc
    | raised => exact List.mem_append_left _ hc
    | _ => exact hc
  | wait task code delivered =>
    obtain ⟨-, guard, rfl⟩ := wait_lock delivered
    exact hc
  | @outside a w idle moved => exact a.elim

theorem completed_reply {s : ConsumerState} {l : ConsumerLabel} {t : Tid} {e : ConsumerEffect}
    {r : e.Reply} {w : ConsumerWorld} {g : Stage} {event : EventEnvelope} {b : Bool}
    (meets : Unfailed s l) (inv : Inv s.world s.running (discipline.statuses s))
    (kept : Completed s.world s.running (discipline.statuses s))
    (ht : discipline.statuses s t = some ⟨event, g, false⟩) (hok : ok event g e)
    (h : Delivered (consuming true) s l t e (.reply r w)) (v : Option Tid)
    (after : Inv w v (Function.update (discipline.statuses s) t (some ⟨event, next g e r, b⟩))) :
    Completed w v (Function.update (discipline.statuses s) t (some ⟨event, next g e r, b⟩)) := by
  have grown : ∀ call ∈ s.world.calls, call ∈ w.calls := by
    intro call hc
    cases reply_moved h with
    | completed => exact List.mem_append_left _ hc
    | raised => exact List.mem_append_left _ hc
    | _ => exact hc
  intro u x a hu answer
  obtain ⟨rfl, rfl⟩ | ⟨-, hu⟩ := update_cases hu
  · have called : event.id ∈ w.called := after.answered (Function.update_self ..) answer
    cases g with
    | before =>
      cases e with
      | lock => cases r <;> cases answer
      | _ => exact hok.elim
    | inside =>
      cases e with
      | isSeen eventId =>
        obtain rfl : eventId = event.id := hok
        have running : s.running = some u := inv.alone ht trivial
        obtain ⟨⟨id, completed⟩, hc, rfl⟩ := List.mem_map.mp called
        cases completed with
        | true => exact hc
        | false =>
          cases reply_moved h
          exact absurd hc (meets _ (h.reached.current running))
      | _ => exact hok.elim
    | fresh =>
      cases e with
      | record recorded => cases answer
      | _ => exact hok.elim
    | recorded =>
      cases e with
      | effect passed =>
        obtain rfl : passed = event := hok
        cases reply_moved h with
        | completed => exact List.mem_append_right _ (List.mem_singleton.mpr rfl)
        | raised => cases answer
      | _ => exact hok.elim
    | leaving given =>
      cases e with
      | release => exact grown _ (kept u ⟨event, .leaving given, false⟩ a ht answer)
      | _ => exact hok.elim
    | finished r => exact hok.elim
  · exact grown _ (kept u x a hu answer)

theorem completed_extends :
    Extends (consuming true) Unfailed discipline Inv Completed where
  call := fun {s t event b v} _ kept new _ u x a hu answer => by
    obtain ⟨rfl, rfl⟩ | ⟨-, hu⟩ := update_cases hu
    · cases answer
    · exact kept u x a hu answer
  reply := fun meets inv kept ht hok h _ v _ after =>
    completed_reply meets inv kept ht hok h v after
  wait := fun _ inv kept ht hok h => by
    obtain ⟨-, guard, rfl⟩ := wait_lock h
    exact kept
  outside := fun {_ a _} _ _ _ => a.elim

theorem completed_maintains : Maintains (consuming true) Unfailed discipline
    fun w v st => Inv w v st ∧ Completed w v st :=
  completed_extends.maintains maintains fun _ _ _ => trivial

/-- The effect completes at most once for an event, and exactly once when a delivery of the event
has returned. -/
def EffectOnce (s : ConsumerState) : Prop :=
  ∀ id, s.world.completions id ≤ 1 ∧ ∀ t T b, s.tasks t = some T → T.call.id = id →
    s.result t = some (.ok b) → s.world.completions id = 1

theorem inv_initial : Inv .initial none (fun _ => none) :=
  ⟨nofun, List.nodup_nil, nofun, nofun, nofun, nofun, nofun⟩

theorem reaches_inv {C : ConsumerState → ConsumerLabel → Prop} {s : ConsumerState}
    (h : Reaches (consuming true) C (.empty .initial) s) :
    discipline.Kept s ∧ Inv s.world s.running (discipline.statuses s) :=
  maintains.reaches_empty inv_initial (h.mono fun _ _ _ => trivial)

theorem completions_le {w : ConsumerWorld} (once : w.called.Nodup) (id : Uuid) :
    w.completions id ≤ 1 :=
  List.nodup_iff_count_le_one.mp once.of_map _

theorem result_answer {s : ConsumerState} (kept : discipline.Kept s) {t : Tid}
    {T : Task EventEnvelope ConsumerEffect ConsumerEffect.Reply (Except Exn Bool)}
    {a : Except Exn Bool} (task : s.tasks t = some T) (h : s.result t = some a) :
    (discipline.phase T).answer = some a := by
  have follows := kept t T task
  obtain ⟨event, code, trace⟩ := T
  simp only [State.result, task, Option.bind_some, Task.result] at h
  cases code with
  | done b =>
    cases h
    have finished : discipline.phase ⟨event, .done a, trace⟩ = .finished a := follows
    rw [finished]
    rfl
  | perform e k => cases h

theorem effect_once {s : ConsumerState}
    (h : Reaches (consuming true) Unfailed (.empty .initial) s) : EffectOnce s := by
  obtain ⟨kept, inv, completed⟩ :=
    completed_maintains.reaches_empty ⟨inv_initial, fun _ _ _ hu => by cases hu⟩ h
  intro id
  refine ⟨completions_le inv.once id, fun t T b task call result => ?_⟩
  subst call
  have done := completed t _ b (discipline.statuses_of_task task) (result_answer kept task result)
  have positive : 0 < s.world.completions T.call.id := List.count_pos_iff.mpr done
  have := completions_le inv.once T.call.id
  omega

/-- A delivery that has found its event seen is to return `False`. -/
def FoundSeen (g : Stage) (trace : List ((e : ConsumerEffect) × e.Reply)) : Prop :=
  ∀ id, (⟨.isSeen id, true⟩ : (e : ConsumerEffect) × e.Reply) ∈ trace → g.answer = some (.ok false)

theorem foundSeen_next {event : EventEnvelope} {g : Stage}
    {trace : List ((e : ConsumerEffect) × e.Reply)} {e : ConsumerEffect} {r : e.Reply}
    (before : FoundSeen g trace) (hok : ok event g e) :
    FoundSeen (next g e r) (trace ++ [⟨e, r⟩]) := by
  intro id found
  obtain found | found := List.mem_append.mp found
  · have answer := before id found
    cases g with
    | leaving given =>
      cases e with
      | release => exact answer
      | _ => exact hok.elim
    | finished given => exact hok.elim
    | _ => cases answer
  · cases List.mem_singleton.mp found
    cases g with
    | inside => rfl
    | _ => exact hok.elim

theorem found_answer {s : ConsumerState} {C : ConsumerState → ConsumerLabel → Prop}
    (h : Reaches (consuming true) C (.empty .initial) s) {t : Tid}
    {T : Task EventEnvelope ConsumerEffect ConsumerEffect.Reply (Except Exn Bool)}
    (task : s.tasks t = some T) : FoundSeen (discipline.phase T) T.trace :=
  maintains.traced (fun _ _ found => absurd found List.not_mem_nil)
    (fun _ _ _ _ _ before hok _ => foundSeen_next before hok) inv_initial
    (h.mono fun _ _ _ => trivial) task

theorem ended_answer {s : ConsumerState} (kept : discipline.Kept s) {t : Tid}
    {T : Task EventEnvelope ConsumerEffect ConsumerEffect.Reply (Except Exn Bool)}
    {a : Except Exn Bool} (task : s.tasks t = some T) (ended : T.code.isDone = true)
    (h : (discipline.phase T).answer = some a) : s.result t = some a := by
  have follows := kept t T task
  obtain ⟨event, code, trace⟩ := T
  simp only [State.result, task, Option.bind_some, Task.result]
  cases code with
  | done b =>
    have finished : discipline.phase ⟨event, .done b, trace⟩ = .finished b := follows
    rw [finished] at h
    exact h
  | perform e k => cases ended

/-- A delivery asks for its own event. -/
theorem asks_own {s : ConsumerState} (kept : discipline.Kept s) {t : Tid} {id : Uuid}
    {T : Task EventEnvelope ConsumerEffect ConsumerEffect.Reply (Except Exn Bool)}
    (reached : s.At t (.isSeen id)) (task : s.tasks t = some T) : id = T.call.id := by
  obtain ⟨T', task', head⟩ := reached
  obtain rfl := Option.some.inj (task.symm.trans task')
  obtain ⟨k, code⟩ := Coroutine.perform_of_head head
  have follows := kept t T task
  rw [code] at follows
  have asks : ok T.call (discipline.phase T) (.isSeen id) := follows.1
  cases stage : discipline.phase T with
  | inside =>
    rw [stage] at asks
    exact asks
  | _ =>
    rw [stage] at asks
    exact asks.elim

/-- A delivery that asks for an event the effect was called for finds it seen. -/
theorem asks_found {s m : ConsumerState} {l : ConsumerLabel}
    (inv : Inv s.world s.running (discipline.statuses s)) {t : Tid} {id : Uuid}
    (running : s.running = some t) (reached : s.At t (.isSeen id)) (called : id ∈ s.world.called)
    (moved : step (consuming true) l s = some m) :
    ∃ T U, s.tasks t = some T ∧ m.tasks t = some U ∧ U.call = T.call ∧
      (⟨.isSeen id, true⟩ : (e : ConsumerEffect) × e.Reply) ∈ U.trace := by
  cases step_moves _ moved with
  | call idle new => cases running.symm.trans idle
  | @outside a w idle moved => exact a.elim
  | @wait l u T e k w task code delivered =>
    obtain rfl := delivered.running running
    obtain ⟨rfl, -⟩ := wait_lock delivered
    cases delivered.reached.unique reached
  | @reply l u T e k r w task code delivered =>
    obtain rfl := delivered.running running
    obtain rfl := delivered.reached.unique reached
    cases reply_moved delivered
    refine ⟨T, _, task, put_task .., rfl, List.mem_append_right _ ?_⟩
    rw [List.contains_iff_mem.mpr (inv.seen id called)]
    exact List.mem_singleton.mpr rfl

/-- A delivery that asks for an event whose effect has raised returns although the effect never
completes. -/
theorem retried_fails {C : ConsumerState → ConsumerLabel → Prop} {s m s' : ConsumerState}
    {l : ConsumerLabel} (before : Reaches (consuming true) C (.empty .initial) s)
    (moved : step (consuming true) l s = some m) (after : Reaches (consuming true) C m s')
    (meets : C s l) (idle : s'.Idle) {id : Uuid} (asks : s.current = some (.isSeen id))
    (raised : (id, false) ∈ s.world.calls) : ¬ EffectOnce s' := by
  intro once
  obtain ⟨kept, inv⟩ := reaches_inv before
  have next := before.tail meets moved
  have ends := next.trans after
  obtain ⟨kept', inv'⟩ := reaches_inv ends
  obtain ⟨t, running, reached⟩ := State.at_of_current asks
  have called : id ∈ s.world.called := List.mem_map_of_mem raised
  obtain ⟨T, U, task, task', call, found⟩ := asks_found inv running reached called moved
  obtain ⟨V, last, call', trace⟩ := after.task task'
  have answer := found_answer ends last id (trace.subset found)
  have result : s'.result t = some (.ok false) := ended_answer kept' last (idle t V last) answer
  have same : V.call.id = id := by
    rw [call', call]
    exact (asks_own kept reached task).symm
  have done : (id, true) ∈ s'.world.calls := by
    apply List.count_pos_iff.mp
    have done := (once id).2 t V false last same result
    rw [ConsumerWorld.completions] at done
    omega
  have stays : (id, false) ∈ s'.world.calls := by
    refine after.invariant (I := fun u => (id, false) ∈ u.world.calls) ?_ ?_
    · exact calls_grow moved _ raised
    · exact fun u l u' hu _ moved => calls_grow moved _ hu
  cases List.inj_on_of_nodup_map inv'.once done stays rfl

/-- Deliveries that never ask for an event whose effect has raised leave every effect completed
that they answered for. When all of them have ended, it is so only if none of them asked. -/
theorem consume_redelivered {ls : List ConsumerLabel} {s : ConsumerState}
    (h : run (consuming true) ls (.empty .initial) = some s) :
    (Throughout (consuming true) Unfailed ls (.empty .initial) → EffectOnce s) ∧
    (s.Idle → EffectOnce s → Throughout (consuming true) Unfailed ls (.empty .initial)) := by
  apply And.intro
  · exact fun meets => effect_once (run_reaches _ meets h)
  intro idle once
  have free (ls : List ConsumerLabel) (s : ConsumerState) :
      Throughout (consuming true) (fun _ _ => True) ls s :=
    throughout_of_forall _ (fun _ _ _ => trivial) s
  apply throughout_of_before
  rintro before l v ⟨after, rfl⟩ hv id asks raised
  rw [run_append, run_append, hv, Option.bind_some] at h
  obtain ⟨m, single, rest⟩ := Option.bind_eq_some_iff.mp h
  obtain ⟨m', moved, hm⟩ := Option.bind_eq_some_iff.mp single
  obtain rfl := Option.some.inj hm
  exact retried_fails (run_reaches _ (free _ _) hv) moved (run_reaches _ (free _ _) rest) trivial
    idle asks raised once

instance (s : ConsumerState) (l : ConsumerLabel) : Decidable (Unfailed s l) :=
  match h : s.current with
  | some (.isSeen id) => decidable_of_iff ((id, false) ∉ s.world.calls)
      ⟨fun raised id' asks => by cases h.symm.trans asks; exact raised, fun meets => meets id h⟩
  | none => .isTrue fun id asks => by cases h.symm.trans asks
  | some .lock => .isTrue fun id asks => by cases h.symm.trans asks
  | some (.record _) => .isTrue fun id asks => by cases h.symm.trans asks
  | some (.effect _) => .isTrue fun id asks => by cases h.symm.trans asks
  | some .release => .isTrue fun id asks => by cases h.symm.trans asks

def paymentEvent (id : Uuid) : EventEnvelope :=
  ⟨.paymentSucceeded, "merchant", some 1, .payment 1 .succeeded, some "stripe", 1, id, 0⟩

/-- A delivery whose effect ends as it is told, and a delivery of an event that is seen. -/
def first (t : Tid) (event : EventEnvelope) (answer : Except Exn Unit) : List ConsumerLabel :=
  [.call t event, .enter t .go, .enter t .go, .enter t .go, .enter t (.done answer), .enter t .go]

def again (t : Tid) (event : EventEnvelope) : List ConsumerLabel :=
  [.call t event, .enter t .go, .enter t .go, .enter t .go]

/-- The first event is delivered twice, and the effect raises for the second one. -/
def deliveries : List ConsumerLabel :=
  first 0 (paymentEvent 4) (.ok ()) ++ again 1 (paymentEvent 4) ++
    first 2 (paymentEvent 5) (.error (.other "OSError"))

theorem consume_redelivered_repeated :
    ∃ s ∈ run (consuming true) deliveries (.empty .initial),
      s.result 1 = some (.ok false) ∧ s.world.completions 5 = 0 ∧ EffectOnce s := by
  have h : ∃ s ∈ run (consuming true) deliveries (.empty .initial),
      s.result 1 = some (.ok false) ∧ s.world.completions 5 = 0 ∧
        Throughout (consuming true) Unfailed deliveries (.empty .initial) := by
    decide +kernel
  obtain ⟨s, moved, result, lost, meets⟩ := h
  exact ⟨s, moved, result, lost, (consume_redelivered moved).1 meets⟩

/-- The effect raises, the event is delivered again, and that delivery returns `False`. -/
theorem effect_lost : ¬ ∀ ls s, run (consuming true) ls (.empty .initial) = some s →
    EffectOnce s := by
  intro once
  have h : ∃ s ∈ run (consuming true) (first 0 (paymentEvent 4) (.error (.other "OSError")) ++
      again 1 (paymentEvent 4)) (.empty .initial), s.result 1 = some (.ok false) ∧
      (s.tasks 1).map Task.call = some (paymentEvent 4) ∧ s.world.completions 4 = 0 := by
    decide +kernel
  obtain ⟨s, moved, result, call, lost⟩ := h
  obtain ⟨T, task, call⟩ := Option.map_eq_some_iff.mp call
  have done := (once _ s moved 4).2 1 T false task (by rw [call]; rfl) result
  rw [lost] at done
  cases done

end Redelivery

end PySwitch
