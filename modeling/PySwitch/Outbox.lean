import Mathlib.Tactic.NormNum
import PySwitch.Async.Footprint
import PySwitch.Store

namespace PySwitch

open Async Program

inductive OutboxEffect where
  | unsent (limit : ℤ)
  | publish (event : EventEnvelope)
  | markPublished (eventId : Uuid)
  | sleep (delay : Seconds)
  deriving DecidableEq

@[reducible] def OutboxEffect.Reply : OutboxEffect → Type
  | .unsent _ => Except Exn (List EventEnvelope)
  | .publish _ => Except Exn Unit
  | .markPublished _ => Except Exn Unit
  | .sleep _ => Except Exn Unit

/-- The constructor raises unless the bounds hold, so every dispatcher carries them. -/
structure OutboxDispatcher where
  pollIntervalSeconds : Seconds := 1 / 4
  maxAttempts : ℕ := 3
  initialBackoffSeconds : Seconds := 1 / 10
  maxBackoffSeconds : Seconds := 1
  poll_pos : 0 < pollIntervalSeconds
  attempts_pos : 1 ≤ maxAttempts
  initial_nonneg : 0 ≤ initialBackoffSeconds
  max_nonneg : 0 ≤ maxBackoffSeconds

/-- The dispatcher with the settings it has when none are given. -/
instance : Inhabited OutboxDispatcher where
  default := {
    poll_pos := by norm_num
    attempts_pos := by decide
    initial_nonneg := by norm_num
    max_nonneg := by norm_num }

/-- The number of events published so far is the one local variable that is kept. -/
abbrev Dispatching (α : Type) : Type := Program OutboxEffect OutboxEffect.Reply ℕ Exn α

namespace OutboxDispatcher

abbrev perform (e : OutboxEffect) : Dispatching e.Reply := effect e

def make (pollIntervalSeconds : Seconds) (maxAttempts : ℕ)
    (initialBackoffSeconds maxBackoffSeconds : Seconds) : Except String OutboxDispatcher :=
  if h : 0 < pollIntervalSeconds ∧ 1 ≤ maxAttempts ∧ 0 ≤ initialBackoffSeconds ∧
      0 ≤ maxBackoffSeconds then
    .ok ⟨pollIntervalSeconds, maxAttempts, initialBackoffSeconds, maxBackoffSeconds, h.1, h.2.1,
      h.2.2.1, h.2.2.2⟩
  else .error "Outbox worker timing and attempts must be non-negative and bounded"

def delay (d : OutboxDispatcher) (attempt : ℕ) : Seconds :=
  min d.maxBackoffSeconds (d.initialBackoffSeconds * 2 ^ attempt)

def deliver (event : EventEnvelope) : Dispatching Unit := do
  await (perform (.publish event))
  await (perform (.markPublished event.id))
  modify (fun published => published + 1)

/-- The attempts at one event from the `attempt`th on, with `remaining` of them left. -/
def sendFrom (d : OutboxDispatcher) (event : EventEnvelope) (lastError : Option Exn)
    (attempt : ℕ) : ℕ → Dispatching Unit
  | 0 =>
    match lastError with
    | some x => raise x
    | none => pure ()
  | remaining + 1 => do
    let answer ← Program.attempt (deliver event)
    match answer with
    | .ok () => pure ()
    | .error .cancelled => raise .cancelled
    | .error x =>
      if attempt = d.maxAttempts - 1 then raise x
      else do
        await (perform (.sleep (d.delay attempt)))
        sendFrom d event (some x) (attempt + 1) remaining

def send (d : OutboxDispatcher) (event : EventEnvelope) : Dispatching Unit :=
  d.sendFrom event none 0 d.maxAttempts

def sendAll (d : OutboxDispatcher) : List EventEnvelope → Dispatching Unit
  | [] => pure ()
  | event :: events => do
    d.send event
    d.sendAll events

def dispatchOnce (d : OutboxDispatcher) (limit : ℤ) : Dispatching ℕ := do
  let events ← await (perform (.unsent limit))
  d.sendAll events
  get

end OutboxDispatcher

/-- A round of a worker. `run` makes one after the other, and goes on after an `Exception`. -/
structure DispatchCall where
  dispatcher : OutboxDispatcher
  limit : ℤ

/-- The outbox, what the broker has accepted and what was ever appended, the earliest first. -/
structure OutboxWorld where
  store : InMemoryPaymentStore
  accepted : List EventEnvelope
  appended : List EventEnvelope

namespace OutboxWorld

def initial : OutboxWorld := ⟨InMemoryPaymentStore.empty, [], []⟩

def append (w : OutboxWorld) (events : List EventEnvelope) : OutboxWorld :=
  { w with store := w.store.append events, appended := w.appended ++ events }

def accept (w : OutboxWorld) (event : EventEnvelope) : OutboxWorld :=
  { w with accepted := w.accepted ++ [event] }

def mark (w : OutboxWorld) (eventId : Uuid) : OutboxWorld :=
  { w with store := w.store.markPublished eventId }

end OutboxWorld

namespace OutboxEffect

/-- How an effect ends: the broker accepts an event by returning, an outbox may raise with or
without having marked the event, and a task can be cancelled at every `await`. -/
def finish : (e : OutboxEffect) → Input → OutboxWorld → Answer e.Reply OutboxWorld
  | .unsent limit, .go, w => .reply (.ok (w.store.unsent limit)) w
  | .publish event, .done (.ok ()), w => .reply (.ok ()) (w.accept event)
  | .publish _, .done (.error x), w => .reply (.error x) w
  | .markPublished eventId, .go, w => .reply (.ok ()) (w.mark eventId)
  | .markPublished eventId, .fail x stored, w =>
    .reply (.error x) (if stored then w.mark eventId else w)
  | .sleep _, .go, w => .reply (.ok ()) w
  | .unsent _, .cancel, w => .reply (.error .cancelled) w
  | .publish _, .cancel, w => .reply (.error .cancelled) w
  | .markPublished _, .cancel, w => .reply (.error .cancelled) w
  | .sleep _, .cancel, w => .reply (.error .cancelled) w
  | _, _, _ => .refuse

def enter (e : OutboxEffect) : Input → OutboxWorld → Answer e.Reply OutboxWorld
  | .suspend, w => .wait w
  | i, w => e.finish i w

end OutboxEffect

/-- Any number of dispatchers over one outbox, to which events are appended all the while. -/
def dispatching : System Tid DispatchCall OutboxEffect OutboxEffect.Reply (Except Exn ℕ) Input
    (List EventEnvelope) OutboxWorld where
  program c := (c.dispatcher.dispatchOnce c.limit).start 0
  enter _ := OutboxEffect.enter
  resume _ := OutboxEffect.finish
  outside events w := some (w.append events)

end PySwitch
