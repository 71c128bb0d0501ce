import PySwitch.Async.Alone
import PySwitch.Outbox
import PySwitch.OutboxLog
import PySwitch.SortedBy

namespace PySwitch

open Async Program OutboxLog

/-- The outbox table of a database and the broker. A row is published when its identifier is. -/
structure SqlOutbox where
  rows : List EventEnvelope
  published : List Uuid
  accepted : List EventEnvelope

namespace SqlOutbox

def unsent (rows : List EventEnvelope) (published : List Uuid) : List EventEnvelope :=
  rows.filter fun row => row.id ∉ published

/-- The database sorts by `created_at` and by nothing else. -/
abbrev Arranges (rows ordered : List EventEnvelope) : Prop :=
  SortedBy.Arranges EventEnvelope.occurredAt rows ordered

def accept (o : SqlOutbox) (event : EventEnvelope) : SqlOutbox :=
  { o with accepted := o.accepted ++ [event] }

def mark (o : SqlOutbox) (eventId : Uuid) : SqlOutbox :=
  if eventId ∈ ids o.rows then { o with published := o.published ++ [eventId] } else o

/-- What a dispatcher meets when the broker works and the database has arranged the unsent rows
as `ordered`. -/
def answer (ordered : List EventEnvelope) :
    (e : OutboxEffect) → SqlOutbox → Answer e.Reply SqlOutbox
  | .unsent limit, o =>
    if limit < 0 then .reply (.error (.other "LIMIT must not be negative")) o
    else .reply (.ok (ordered.take limit.toNat)) o
  | .publish event, o => .reply (.ok ()) (o.accept event)
  | .markPublished eventId, o => .reply (.ok ()) (o.mark eventId)
  | .sleep _, o => .reply (.ok ()) o

/-- The broker has accepted a batch, and the table knows. -/
def deliver (o : SqlOutbox) (batch : List EventEnvelope) : SqlOutbox :=
  { o with published := o.published ++ ids batch, accepted := o.accepted ++ batch }

variable {ordered : List EventEnvelope} {o : SqlOutbox} {n : ℕ} (d : OutboxDispatcher)

theorem send_alone {event : EventEnvelope} (known : event.id ∈ ids o.rows) :
    (d.send event).alone (answer ordered) n o = (some (.ok (), n + 1), o.deliver [event]) := by
  have delivered : (OutboxDispatcher.deliver event).alone (answer ordered) n o =
      (some (.ok (), n + 1), o.deliver [event]) := by
    have marked : (o.accept event).mark event.id = o.deliver [event] := by
      unfold mark
      exact if_pos known
    simp only [OutboxDispatcher.deliver, OutboxDispatcher.perform, alone_bind, alone_await,
      alone_effect, answer, andThen, marked]
    rfl
  obtain ⟨remaining, attempts⟩ := Nat.exists_eq_succ_of_ne_zero (Nat.one_le_iff_ne_zero.mp
    d.attempts_pos)
  rw [OutboxDispatcher.send, attempts]
  simp only [OutboxDispatcher.sendFrom, alone_bind, alone_attempt, delivered, Option.map_some,
    andThen, alone_pure]

theorem sendAll_alone {batch : List EventEnvelope} (known : ∀ id ∈ ids batch, id ∈ ids o.rows) :
    (d.sendAll batch).alone (answer ordered) n o =
      (some (.ok (), n + batch.length), o.deliver batch) := by
  induction batch generalizing o n with
  | nil => simp [OutboxDispatcher.sendAll, deliver, ids]
  | cons event batch ih =>
    have head : event.id ∈ ids o.rows := known _ (List.mem_cons_self ..)
    have tail : ∀ id ∈ ids batch, id ∈ ids (o.deliver [event]).rows :=
      fun id hid => known id (List.mem_cons_of_mem _ hid)
    simp only [OutboxDispatcher.sendAll, alone_bind, send_alone d head, andThen, ih tail]
    simp [deliver, ids]
    omega

theorem round_alone {limit : ℤ} (h : 0 ≤ limit) (known : ∀ row ∈ ordered, row ∈ o.rows) :
    (d.dispatchOnce limit).alone (answer ordered) 0 o =
      (some (.ok (ordered.take limit.toNat).length, (ordered.take limit.toNat).length),
        o.deliver (ordered.take limit.toNat)) := by
  have batch : ∀ id ∈ ids (ordered.take limit.toNat), id ∈ ids o.rows := by
    intro id hid
    obtain ⟨row, hrow, rfl⟩ := List.mem_map.mp hid
    exact List.mem_map_of_mem (known row (List.mem_of_mem_take hrow))
  simp only [OutboxDispatcher.dispatchOnce, OutboxDispatcher.perform, alone_bind, alone_await,
    alone_effect, answer, if_neg (not_lt.mpr h), andThen, sendAll_alone d batch, Nat.zero_add]
  rfl

theorem round_negative {limit : ℤ} (h : limit < 0) :
    ((d.dispatchOnce limit).alone (answer ordered) 0 o).2 = o := by
  simp only [OutboxDispatcher.dispatchOnce, OutboxDispatcher.perform, alone_bind, alone_await,
    alone_effect, answer, if_pos h, andThen]

end SqlOutbox

end PySwitch
