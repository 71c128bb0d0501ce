import PySwitch.Input

namespace PySwitch

open Async

inductive StoreEffect where
  | get (paymentId : Uuid)
  | getByIdempotency (key : RecordKey)
  | save (payment : Payment)
  | saveWithEvents (payment : Payment) (events : List EventEnvelope)
  | append (events : List EventEnvelope)
  | reread (payment : Payment)
  deriving DecidableEq

@[reducible] def StoreEffect.Reply : StoreEffect → Type
  | .get _ => Except Exn (Option Payment)
  | .getByIdempotency _ => Except Exn (Option Payment)
  | .save _ => Except Exn Unit
  | .saveWithEvents _ _ => Except Exn Unit
  | .append _ => Except Exn Unit
  | .reread _ => Payment

/-- The dictionaries of the store. `order` and the list of events keep the order in which
keys were first inserted. -/
structure InMemoryPaymentStore where
  payments : Uuid → Option Payment
  order : List Uuid
  keys : RecordKey → Option Uuid
  events : List EventEnvelope
  published : Uuid → Bool

namespace InMemoryPaymentStore

def empty : InMemoryPaymentStore := ⟨fun _ => none, [], fun _ => none, [], fun _ => false⟩

def get (s : InMemoryPaymentStore) (paymentId : Uuid) : Option Payment := s.payments paymentId

def getByIdempotency (s : InMemoryPaymentStore) (key : RecordKey) : Option Payment :=
  (s.keys key).bind s.payments

def save (s : InMemoryPaymentStore) (payment : Payment) : InMemoryPaymentStore :=
  { s with
    payments := Function.update s.payments payment.id (some payment)
    order := if (s.payments payment.id).isSome then s.order else s.order ++ [payment.id]
    keys := Function.update s.keys payment.key (some payment.id) }

def putEvent (events : List EventEnvelope) (event : EventEnvelope) : List EventEnvelope :=
  if events.any (fun other => other.id = event.id) then
    events.map fun other => if other.id = event.id then event else other
  else events ++ [event]

def append (s : InMemoryPaymentStore) (events : List EventEnvelope) : InMemoryPaymentStore :=
  { s with events := events.foldl putEvent s.events }

def saveWithEvents (s : InMemoryPaymentStore) (payment : Payment) (events : List EventEnvelope) :
    InMemoryPaymentStore := (s.save payment).append events

/-- The slice `items[:limit]`; a negative limit counts from the end. -/
def upTo {α : Type} (items : List α) (limit : ℤ) : List α :=
  if 0 ≤ limit then items.take limit.toNat else items.take (items.length - limit.natAbs)

def unsent (s : InMemoryPaymentStore) (limit : ℤ) : List EventEnvelope :=
  upTo (s.events.filter fun event => s.published event.id = false) limit

def markPublished (s : InMemoryPaymentStore) (eventId : Uuid) : InMemoryPaymentStore :=
  if s.events.any (fun event => event.id = eventId) then
    { s with published := Function.update s.published eventId true }
  else s

/-- The state an operation leaves behind when it takes effect. -/
def commit : StoreEffect → InMemoryPaymentStore → InMemoryPaymentStore
  | .save payment, s => s.save payment
  | .saveWithEvents payment events, s => s.saveWithEvents payment events
  | .append events, s => s.append events
  | _, s => s

/-- `reread` looks at the fields of a payment obtained earlier. In this store it is the
stored object itself. -/
def answer : (e : StoreEffect) → InMemoryPaymentStore → e.Reply
  | .get paymentId, s => .ok (s.get paymentId)
  | .getByIdempotency key, s => .ok (s.getByIdempotency key)
  | .save _, _ => .ok ()
  | .saveWithEvents _ _, _ => .ok ()
  | .append _, _ => .ok ()
  | .reread payment, s => (s.get payment.id).getD payment

def enter (e : StoreEffect) : Input → InMemoryPaymentStore → Answer e.Reply InMemoryPaymentStore
  | .go, s => .reply (answer e s) (commit e s)
  | _, _ => .refuse

end InMemoryPaymentStore

/-- A store behind a connection: an operation may suspend the task, and may raise with or
without having taken effect. The payments it returns are copies. -/
def ExternalStore.answer : (e : StoreEffect) → Input → InMemoryPaymentStore →
    Answer e.Reply InMemoryPaymentStore
  | .reread payment, .go, s => .reply payment s
  | e, .go, s => .reply (s.answer e) (s.commit e)
  | .get _, .fail error _, s => .reply (.error error) s
  | .getByIdempotency _, .fail error _, s => .reply (.error error) s
  | .save payment, .fail error stored, s =>
    .reply (.error error) (if stored then s.save payment else s)
  | .saveWithEvents payment events, .fail error stored, s =>
    .reply (.error error) (if stored then s.saveWithEvents payment events else s)
  | .append events, .fail error stored, s =>
    .reply (.error error) (if stored then s.append events else s)
  | _, .suspend, s => .wait s
  | _, _, _ => .refuse

end PySwitch
