import PySwitch.Async.Invariant
import PySwitch.Outbox
import PySwitch.OutboxLog
import Mathlib.Tactic.NormNum

namespace PySwitch.OutboxDispatch

open Async Program OutboxDispatcher DeliveryOrder OutboxLog

/-- The identifiers a dispatcher has still to deliver. The broker has accepted the first of them
when it is `delivered`, but the outbox does not know yet. -/
inductive Stage where
  | idle
  | pending (queue : List Uuid)
  | delivered (eventId : Uuid) (queue : List Uuid)

def ok : Stage → OutboxEffect → Prop
  | .idle, .unsent _ => True
  | .pending (eventId :: _), .publish event => event.id = eventId
  | .pending (_ :: _), .sleep _ => True
  | .delivered eventId _, .markPublished marked => marked = eventId
  | _, _ => False

def next : Stage → (e : OutboxEffect) → e.Reply → Stage
  | .idle, .unsent _, .ok events => .pending (events.map EventEnvelope.id)
  | .pending (eventId :: queue), .publish _, .ok _ => .delivered eventId queue
  | .delivered _ queue, .markPublished _, .ok _ => .pending queue
  | .delivered eventId queue, .markPublished _, .error _ => .pending (eventId :: queue)
  | g, _, _ => g

def protocol : Protocol OutboxEffect OutboxEffect.Reply Stage := ⟨ok, fun _ _ _ => True, next⟩

def discipline : Discipline DispatchCall OutboxEffect OutboxEffect.Reply (Except Exn ℕ) Stage :=
  ⟨fun _ => protocol, fun _ => .idle, fun _ _ _ => True⟩

section Program

variable (d : OutboxDispatcher) {event : EventEnvelope} {queue : List Uuid} {s : ℕ}

/-- An event leaves the queue when the broker has accepted it and the outbox has marked it. -/
def afterSend (eventId : Uuid) (queue : List Uuid) : Except Exn Unit → Stage
  | .ok _ => .pending queue
  | .error _ => .pending (eventId :: queue)

theorem deliver_wp : wp protocol (deliver event)
    (fun r _ g => g = afterSend event.id queue r) s (.pending (event.id :: queue)) := by
  simp only [deliver, wp_bind, wp_await, wp_effect]
  refine ⟨rfl, fun published _ => ?_⟩
  cases published with
  | error x => rfl
  | ok _ =>
    refine ⟨rfl, fun marked _ => ?_⟩
    cases marked <;> rfl

/-- The attempts at an event either deliver it or end in an exception. -/
theorem sendFrom_wp {lastError : Option Exn} {attempt remaining : ℕ}
    (some : lastError ≠ none ∨ 0 < remaining) :
    wp protocol (d.sendFrom event lastError attempt remaining)
      (fun r _ g => g = afterSend event.id queue r) s (.pending (event.id :: queue)) := by
  induction remaining generalizing lastError attempt s with
  | zero =>
    cases lastError with
    | none => simp at some
    | some x => rfl
  | succ remaining ih =>
    simp only [sendFrom, wp_bind, wp_attempt]
    apply wp_mono deliver_wp
    rintro r s' g rfl
    cases r with
    | ok _ => rfl
    | error x =>
      have retried : wp protocol (do
          if attempt = d.maxAttempts - 1 then raise x
          else do
            await (OutboxDispatcher.perform (.sleep (d.delay attempt)))
            sendFrom d event (.some x) (attempt + 1) remaining : Dispatching Unit)
          (fun r _ g => g = afterSend event.id queue r) s' (.pending (event.id :: queue)) := by
        rw [wp_ite]
        split
        · rfl
        · simp only [wp_bind, wp_await, wp_effect]
          refine ⟨trivial, fun slept _ => ?_⟩
          cases slept with
          | error x => rfl
          | ok _ => exact ih (.inl (Option.some_ne_none x))
      cases x with
      | cancelled => rfl
      | _ => exact retried

theorem sendAll_wp {events : List EventEnvelope} :
    wp protocol (d.sendAll events) (fun _ _ _ => True) s
      (.pending (events.map EventEnvelope.id)) := by
  induction events generalizing s with
  | nil => trivial
  | cons event events ih =>
    simp only [sendAll, send, wp_bind]
    apply wp_mono (sendFrom_wp d (.inr d.attempts_pos))
    rintro r s' g rfl
    cases r with
    | error x => trivial
    | ok _ => exact ih

theorem dispatchOnce_wp (limit : ℤ) :
    wp protocol (d.dispatchOnce limit) (fun _ _ _ => True) s .idle := by
  simp only [dispatchOnce, wp_bind, wp_await, wp_effect]
  refine ⟨trivial, fun events _ => ?_⟩
  cases events with
  | error x => trivial
  | ok events =>
    rw [orRaise_ok, orRaise_ok, wp_bind]
    apply wp_mono (sendAll_wp d)
    rintro r s' g -
    cases r <;> trivial

end Program

abbrev Statuses : Type := Tid → Option (Status DispatchCall Stage)

/-- A dispatcher comes to an event only after the broker has accepted everything before it. -/
def Waits (order accepted : List Uuid) : Stage → Prop
  | .idle => True
  | .pending queue => Queued order accepted queue
  | .delivered eventId queue => eventId ∈ accepted ∧ Queued order accepted (eventId :: queue)

structure Inv (w : OutboxWorld) (_ : Option Tid) (st : Statuses) : Prop where
  logs : Logs w.store.events w.appended
  marked : ∀ id, w.store.published id = true → id ∈ ids w.accepted
  first : (ids w.accepted).eraseDups <+: ids w.store.events
  waits : ∀ {t u}, st t = some u → Waits (ids w.store.events) (ids w.accepted) u.phase

theorem Waits.mono {order accepted accepted' : List Uuid} {g : Stage} (h : Waits order accepted g)
    (sub : ∀ y ∈ accepted, y ∈ accepted') : Waits order accepted' g := by
  cases g with
  | idle => trivial
  | pending queue => exact Queued.mono h sub
  | delivered eventId queue => exact ⟨sub _ h.1, Queued.mono h.2 sub⟩

theorem Waits.grow {order accepted : List Uuid} {g : Stage} (h : Waits order accepted g)
    (new : List Uuid) : Waits (order ++ new) accepted g := by
  cases g with
  | idle => trivial
  | pending queue => exact Queued.grow h new
  | delivered eventId queue => exact ⟨h.1, Queued.grow h.2 new⟩

section Step

abbrev DispatchState : Type :=
  State Tid DispatchCall OutboxEffect OutboxEffect.Reply (Except Exn ℕ) OutboxWorld

abbrev DispatchLabel : Type := Label Tid DispatchCall Input (List EventEnvelope)

variable {s : DispatchState} {l : DispatchLabel} {t : Tid} {e : OutboxEffect} {r : e.Reply}
  {w : OutboxWorld} {g : Stage} {c : DispatchCall}

/-- What an effect does to the outbox and at the broker. -/
inductive Moved (w : OutboxWorld) : (e : OutboxEffect) → e.Reply → OutboxWorld → Prop
  | read {limit : ℤ} : Moved w (.unsent limit) (.ok (w.store.unsent limit)) w
  | unread {limit : ℤ} {x : Exn} : Moved w (.unsent limit) (.error x) w
  | accepted {event : EventEnvelope} : Moved w (.publish event) (.ok ()) (w.accept event)
  | refused {event : EventEnvelope} {x : Exn} : Moved w (.publish event) (.error x) w
  | marked {eventId : Uuid} {r : Except Exn Unit} :
    Moved w (.markPublished eventId) r (w.mark eventId)
  | unmarked {eventId : Uuid} {x : Exn} : Moved w (.markPublished eventId) (.error x) w
  | slept {delay : Seconds} {r : Except Exn Unit} : Moved w (.sleep delay) r w

theorem finish_moved {i : Input} {w w' : OutboxWorld} (h : e.finish i w = .reply r w') :
    Moved w e r w' := by
  cases e with
  | unsent limit =>
    cases i with
    | go => cases h; exact .read
    | cancel => cases h; exact .unread
    | _ => cases h
  | publish event =>
    cases i with
    | done answer =>
      cases answer with
      | ok _ => cases h; exact .accepted
      | error x => cases h; exact .refused
    | cancel => cases h; exact .refused
    | _ => cases h
  | markPublished eventId =>
    cases i with
    | go => cases h; exact .marked
    | fail x stored =>
      cases stored with
      | true => cases h; exact .marked
      | false => cases h; exact .unmarked
    | cancel => cases h; exact .unmarked
    | _ => cases h
  | sleep delay =>
    cases i with
    | go => cases h; exact .slept
    | cancel => cases h; exact .slept
    | _ => cases h

theorem finish_never_waits {i : Input} {w w' : OutboxWorld} : e.finish i w ≠ .wait w' := by
  intro h
  unfold OutboxEffect.finish at h
  split at h <;> cases h

theorem reply_moved (h : Delivered dispatching s l t e (.reply r w)) : Moved s.world e r w := by
  obtain ⟨i, -, -, ha⟩ | ⟨i, -, -, ha⟩ := h.answer
  · cases i with
    | suspend => cases ha
    | _ => exact finish_moved ha.symm
  · exact finish_moved ha.symm

theorem wait_same (h : Delivered dispatching s l t e (.wait w)) : w = s.world := by
  obtain ⟨i, -, -, ha⟩ | ⟨i, -, -, ha⟩ := h.answer
  · cases i with
    | suspend => exact Answer.wait.inj ha
    | _ => exact absurd ha.symm finish_never_waits
  · exact absurd ha.symm finish_never_waits

theorem mark_store (w : OutboxWorld) (eventId : Uuid) :
    (w.mark eventId).store.events = w.store.events ∧
      ∀ id, (w.mark eventId).store.published id = true →
        id = eventId ∨ w.store.published id = true := by
  simp only [OutboxWorld.mark, InMemoryPaymentStore.markPublished]
  split
  · refine ⟨rfl, fun id h => ?_⟩
    by_cases hid : id = eventId
    · exact .inl hid
    · exact .inr ((Function.update_of_ne hid ..).symm.trans h)
  · exact ⟨rfl, fun id h => .inr h⟩

theorem unsent_queued (inv : Inv s.world s.running (discipline.statuses s)) (limit : ℤ) :
    Queued (ids s.world.store.events) (ids s.world.accepted)
      (ids (s.world.store.unsent limit)) := by
  have all : Queued (ids s.world.store.events) (ids s.world.accepted)
      ((ids s.world.store.events).filter fun id => s.world.store.published id = false) := by
    rw [← List.nil_append (ids s.world.store.events)]
    apply queued_filter
    · exact fun y hy => absurd hy List.not_mem_nil
    · exact fun id published => inv.marked id (by simpa using published)
  have cut (n : ℕ) : ids ((s.world.store.events.filter fun event =>
      s.world.store.published event.id = false).take n) = ((ids s.world.store.events).filter
        fun id => s.world.store.published id = false).take n := by
    simp only [ids, List.map_take, List.filter_map]
    rfl
  simp only [InMemoryPaymentStore.unsent, InMemoryPaymentStore.upTo]
  split
  · rw [cut]
    exact all.take _
  · rw [cut]
    exact all.take _

theorem ids_accept (w : OutboxWorld) (event : EventEnvelope) :
    ids (w.accept event).accepted = ids w.accepted ++ [event.id] := ids_append ..

theorem ids_nodup {events appended : List EventEnvelope} (h : Logs events appended) :
    (ids events).Nodup := by
  rw [h.order]
  exact nodup_eraseDups _

/-- Where a dispatcher is after an effect, and that it is not ahead of the broker there. -/
theorem waits_next (inv : Inv s.world s.running (discipline.statuses s)) (hok : ok g e)
    (waits : Waits (ids s.world.store.events) (ids s.world.accepted) g)
    (moved : Moved s.world e r w) :
    Waits (ids w.store.events) (ids w.accepted) (next g e r) := by
  cases moved with
  | read =>
    cases g with
    | idle => exact unsent_queued inv _
    | pending queue => cases queue <;> exact hok.elim
    | delivered => exact hok.elim
  | accepted =>
    rename_i event
    cases g with
    | pending queue =>
      cases queue with
      | nil => exact hok.elim
      | cons eventId queue =>
        obtain rfl : event.id = eventId := hok
        rw [ids_accept]
        refine ⟨by simp, Queued.mono waits fun y hy => List.mem_append_left _ hy⟩
    | _ => exact hok.elim
  | @marked eventId r =>
    rw [(mark_store s.world eventId).1]
    cases g with
    | delivered first queue =>
      cases r with
      | error x => exact waits.2
      | ok _ =>
        refine Queued.mono waits.2.2 fun y hy => ?_
        obtain rfl | hy := List.mem_cons.mp hy
        · exact waits.1
        · exact hy
    | pending queue => cases queue <;> exact hok.elim
    | idle => exact hok.elim
  | unmarked =>
    cases g with
    | delivered first queue => exact waits.2
    | pending queue => cases queue <;> exact hok.elim
    | idle => exact hok.elim
  | unread =>
    cases g with
    | idle => trivial
    | pending queue => cases queue <;> exact hok.elim
    | delivered => exact hok.elim
  | refused =>
    cases g with
    | pending queue =>
      cases queue with
      | nil => exact hok.elim
      | cons eventId queue => exact waits
    | _ => exact hok.elim
  | slept =>
    cases g with
    | pending queue =>
      cases queue with
      | nil => exact hok.elim
      | cons eventId queue => exact waits
    | _ => exact hok.elim

end Step

theorem inv_reply {s : DispatchState} {l : DispatchLabel} {t : Tid} {c : DispatchCall}
    {g : Stage} {e : OutboxEffect} {r : e.Reply} {w : OutboxWorld}
    (inv : Inv s.world s.running (discipline.statuses s))
    (ht : discipline.statuses s t = some ⟨c, g, false⟩) (hok : ok g e)
    (h : Delivered dispatching s l t e (.reply r w)) (b : Bool) (v : Option Tid) :
    Inv w v (Function.update (discipline.statuses s) t (some ⟨c, next g e r, b⟩)) := by
  have moved := reply_moved h
  have waits : ∀ {u x}, Function.update (discipline.statuses s) t
      (some ⟨c, next g e r, b⟩) u = some x →
      Waits (ids w.store.events) (ids w.accepted) x.phase := by
    intro u x hu
    obtain ⟨rfl, rfl⟩ | ⟨-, hu⟩ := update_cases hu
    · exact waits_next inv hok (inv.waits ht) moved
    · have waits := inv.waits hu
      cases moved with
      | accepted =>
        rw [ids_accept]
        exact waits.mono fun y hy => List.mem_append_left _ hy
      | marked => rwa [(mark_store s.world _).1]
      | _ => exact waits
  cases moved with
  | @accepted event =>
    have due : Due (ids s.world.store.events) (ids s.world.accepted) event.id := by
      have waits := inv.waits ht
      cases g with
      | pending queue =>
        cases queue with
        | nil => exact hok.elim
        | cons eventId queue =>
          obtain rfl : event.id = eventId := hok
          exact waits.1
      | _ => exact hok.elim
    have first := first_acceptances (ids_nodup inv.logs) inv.first due
    refine ⟨inv.logs, fun id published => ?_, ?_, waits⟩
    · rw [ids_accept]
      exact List.mem_append_left _ (inv.marked id published)
    · rwa [ids_accept]
  | @marked eventId r =>
    have accepted : eventId ∈ ids s.world.accepted := by
      have waits := inv.waits ht
      cases g with
      | delivered first queue =>
        obtain rfl : eventId = first := hok
        exact waits.1
      | pending queue => cases queue <;> exact hok.elim
      | idle => exact hok.elim
    obtain ⟨events, published⟩ := mark_store s.world eventId
    refine ⟨by rw [events]; exact inv.logs, fun id marked => ?_, by rw [events]; exact inv.first,
      waits⟩
    obtain rfl | marked := published id marked
    · exact accepted
    · exact inv.marked id marked
  | _ => exact ⟨inv.logs, inv.marked, inv.first, waits⟩

theorem maintains : Maintains dispatching (fun _ _ => True) discipline Inv where
  follows := fun c => start_follows (dispatchOnce_wp c.dispatcher c.limit)
  call := fun {s t c b v} _ inv new hg => ⟨inv.logs, inv.marked, inv.first, fun hu => by
    obtain ⟨rfl, rfl⟩ | ⟨-, hu⟩ := update_cases hu
    · trivial
    · exact inv.waits hu⟩
  reply := fun _ inv ht hok h => ⟨trivial, fun b v _ => inv_reply inv ht hok h b v⟩
  wait := fun {s l t c g e w} _ inv ht hok h => by
    obtain rfl := wait_same h
    exact ⟨inv.logs, inv.marked, inv.first, inv.waits⟩
  outside := fun {s events w} _ inv moved => by
    cases moved
    have logs := inv.logs.append events
    have grown : ids s.world.store.events <+: ids (s.world.store.append events).events := by
      rw [logs.order, inv.logs.order, ids_append, List.eraseDups_append]
      exact List.prefix_append ..
    obtain ⟨new, hnew⟩ := grown
    refine ⟨logs, inv.marked, inv.first.trans ⟨new, hnew⟩, fun hu => ?_⟩
    have waits := (inv.waits hu).grow new
    rw [hnew] at waits
    exact waits

/-- However dispatchers and the outbox interleave, fail and are cancelled: an event that is marked
has been accepted by the broker; every appended event is marked or still handed out; and the
broker accepts events for the first time in the order in which they were appended. -/
theorem dispatch_lossless {s : DispatchState}
    (h : Reaches dispatching (fun _ _ => True) (.empty .initial) s) :
    (∀ id, s.world.store.published id = true → ∃ event ∈ s.world.accepted, event.id = id) ∧
    (∃ enough : ℤ, ∀ limit ≥ enough, ∀ event ∈ s.world.appended,
      s.world.store.published event.id = true ∨
        ∃ other ∈ s.world.store.unsent limit, other.id = event.id ∧ other ∈ s.world.appended) ∧
    (ids s.world.accepted).eraseDups <+: (ids s.world.appended).eraseDups := by
  have first : Inv .initial none (fun _ => none) :=
    ⟨⟨rfl, nofun⟩, nofun, List.nil_prefix, nofun⟩
  obtain ⟨-, inv⟩ := maintains.reaches_empty first h
  refine ⟨fun id published => List.mem_map.mp (inv.marked id published), ?_, ?_⟩
  · refine ⟨s.world.store.events.length, fun limit large event he => ?_⟩
    by_cases published : s.world.store.published event.id = true
    · exact .inl published
    · have stored : event.id ∈ ids s.world.store.events := by
        rw [inv.logs.order, List.mem_eraseDups]
        exact List.mem_map_of_mem he
      obtain ⟨other, hm, same⟩ := List.mem_map.mp stored
      refine .inr ⟨other, ?_, same, inv.logs.known other hm⟩
      have sent : (s.world.store.events.filter fun event =>
          s.world.store.published event.id = false).length ≤ limit.toNat := by
        have := List.length_filter_le (fun event : EventEnvelope =>
          s.world.store.published event.id = false) s.world.store.events
        omega
      rw [InMemoryPaymentStore.unsent, InMemoryPaymentStore.upTo, if_pos (by omega),
        List.take_of_length_le sent, List.mem_filter]
      exact ⟨hm, by simpa [same] using published⟩
  · rw [← inv.logs.order]
    exact inv.first

def worker : OutboxDispatcher := default

def circuitEvent (id : Uuid) : EventEnvelope :=
  ⟨.providerCircuitOpened, "system", none, .circuit "stripe" .closed .opened, some "stripe", 1, id, 0⟩

/-- The first mark of the first event fails, so that it is published twice. -/
def markedLate : List DispatchLabel :=
  [.outside [circuitEvent 4, circuitEvent 2], .call 0 ⟨worker, 100⟩, .enter 0 .go,
    .enter 0 (.done (.ok ())), .enter 0 (.fail (.other "OSError") false), .enter 0 .suspend,
    .resume 0 .go, .enter 0 (.done (.ok ())), .enter 0 .go, .enter 0 .suspend,
    .resume 0 (.done (.ok ())), .enter 0 .go]

theorem dispatch_lossless_twice : ∃ s ∈ run dispatching markedLate (.empty .initial),
    ids s.world.accepted = [4, 4, 2] ∧ s.world.store.published 2 = true ∧
    (ids s.world.accepted).eraseDups <+: (ids s.world.appended).eraseDups := by
  have h : ∃ s ∈ run dispatching markedLate (.empty .initial),
      ids s.world.accepted = [4, 4, 2] ∧ s.world.store.published 2 = true := by
    decide +kernel
  obtain ⟨s, moved, accepted, published⟩ := h
  have sound := dispatch_lossless
    (run_reaches _ (throughout_of_forall _ (fun _ _ _ => trivial) _) moved)
  exact ⟨s, moved, accepted, published, sound.2.2⟩

end PySwitch.OutboxDispatch
