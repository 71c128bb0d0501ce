import PySwitch.Input

namespace PySwitch

open Async

inductive CoordinatorEffect where
  | acquire (key : RecordKey) (fingerprint : String)
  | complete (key : RecordKey) (fingerprint : String) (paymentId : Uuid)
  | abort (key : RecordKey) (fingerprint : String)
  deriving DecidableEq

@[reducible] def CoordinatorEffect.Reply : CoordinatorEffect → Type
  | .acquire _ _ => Except Exn IdempotencyDecision
  | .complete _ _ _ => Except Exn Unit
  | .abort _ _ => Except Exn Unit

structure IdempotencyRecord where
  fingerprint : String
  paymentId : Option Uuid
  completed : Bool

/-- The locks of the coordinator are never held while a task is suspended, so taking one
never suspends either. What is left is the records, the event objects that waiters hold on
to, and which of them are set. -/
structure MemoryIdempotencyCoordinator where
  records : RecordKey → Option IdempotencyRecord
  events : RecordKey → Option ℕ
  isSet : ℕ → Bool
  nextEvent : ℕ
  waiting : Tid → Option ℕ

namespace MemoryIdempotencyCoordinator

def empty : MemoryIdempotencyCoordinator :=
  ⟨fun _ => none, fun _ => none, fun _ => false, 0, fun _ => none⟩

def claim (c : MemoryIdempotencyCoordinator) (key : RecordKey) (fingerprint : String) :
    MemoryIdempotencyCoordinator :=
  { c with
    records := Function.update c.records key (some ⟨fingerprint, none, false⟩)
    events := Function.update c.events key (some c.nextEvent)
    isSet := Function.update c.isSet c.nextEvent false
    nextEvent := c.nextEvent + 1 }

/-- One pass of the loop in `acquire`: a decision, or a wait for the owner's event. -/
def acquire (c : MemoryIdempotencyCoordinator) (t : Tid) (key : RecordKey) (fingerprint : String) :
    Answer (Except Exn IdempotencyDecision) MemoryIdempotencyCoordinator :=
  match c.records key with
  | none => .reply (.ok ⟨.claimed, none⟩) (c.claim key fingerprint)
  | some record =>
    if record.fingerprint ≠ fingerprint then .reply (.ok ⟨.conflict, none⟩) c
    else if record.completed then .reply (.ok ⟨.completed, record.paymentId⟩) c
    else match c.events key with
      | some event => .wait { c with waiting := Function.update c.waiting t (some event) }
      | none => .reply (.error (.other "KeyError")) c

/-- The event registered for the key wakes everyone who waits on it. -/
def setEvent (c : MemoryIdempotencyCoordinator) (key : RecordKey) : MemoryIdempotencyCoordinator :=
  match c.events key with
  | some event => { c with isSet := Function.update c.isSet event true }
  | none => c

def complete (c : MemoryIdempotencyCoordinator) (key : RecordKey) (fingerprint : String)
    (paymentId : Uuid) : Except Exn Unit × MemoryIdempotencyCoordinator :=
  match c.records key with
  | none => (.error (.idempotencyUnavailable "Idempotency claim is missing"), c)
  | some record =>
    if record.fingerprint ≠ fingerprint then
      (.error (.idempotencyUnavailable "Idempotency claim is missing"), c)
    else
      (.ok (), { c with
        records := Function.update c.records key (some ⟨fingerprint, some paymentId, true⟩)
        }.setEvent key)

def abort (c : MemoryIdempotencyCoordinator) (key : RecordKey) (fingerprint : String) :
    MemoryIdempotencyCoordinator :=
  match c.records key with
  | none => c
  | some record =>
    if record.fingerprint = fingerprint ∧ record.completed = false then
      { c with records := Function.update c.records key none }.setEvent key
    else c

def forget (c : MemoryIdempotencyCoordinator) (t : Tid) : MemoryIdempotencyCoordinator :=
  { c with waiting := Function.update c.waiting t none }

def enter (t : Tid) : (e : CoordinatorEffect) → Input → MemoryIdempotencyCoordinator →
    Answer e.Reply MemoryIdempotencyCoordinator
  | .acquire key fingerprint, .go, c => c.acquire t key fingerprint
  | .complete key fingerprint paymentId, .go, c =>
    .reply (c.complete key fingerprint paymentId).1 (c.complete key fingerprint paymentId).2
  | .abort key fingerprint, .go, c => .reply (.ok ()) (c.abort key fingerprint)
  | _, _, _ => .refuse

/-- A waiter goes round the loop again once its event is set; it can be cancelled before. -/
def resume (t : Tid) : (e : CoordinatorEffect) → Input → MemoryIdempotencyCoordinator →
    Answer e.Reply MemoryIdempotencyCoordinator
  | .acquire key fingerprint, .go, c =>
    match c.waiting t with
    | some event => if c.isSet event then (c.forget t).acquire t key fingerprint else .refuse
    | none => .refuse
  | .acquire _ _, .cancel, c => .reply (.error .cancelled) (c.forget t)
  | _, _, _ => .refuse

theorem setEvent_records (c : MemoryIdempotencyCoordinator) (key : RecordKey) :
    (c.setEvent key).records = c.records ∧ (c.setEvent key).events = c.events := by
  unfold setEvent
  split <;> exact ⟨rfl, rfl⟩

theorem complete_of_claimed {c : MemoryIdempotencyCoordinator} {key : RecordKey}
    {fingerprint : String} (found : c.records key = some ⟨fingerprint, none, false⟩)
    (paymentId : Uuid) : (c.complete key fingerprint paymentId).1 = .ok () ∧
      (c.complete key fingerprint paymentId).2.records =
        Function.update c.records key (some ⟨fingerprint, some paymentId, true⟩) ∧
      (c.complete key fingerprint paymentId).2.events = c.events := by
  simp only [complete, found, ne_eq, not_true_eq_false, if_false, setEvent_records, and_self]

theorem abort_of_claimed {c : MemoryIdempotencyCoordinator} {key : RecordKey}
    {fingerprint : String} (found : c.records key = some ⟨fingerprint, none, false⟩) :
    (c.abort key fingerprint).records = Function.update c.records key none ∧
      (c.abort key fingerprint).events = c.events := by
  simp only [abort, found, and_self, if_true, setEvent_records]

structure Unmoved (c c' : MemoryIdempotencyCoordinator) : Prop where
  records : c'.records = c.records
  events : c'.events = c.events

/-- What a call of `acquire` can get, and what it does to the records. -/
inductive Decides (c : MemoryIdempotencyCoordinator) (key : RecordKey) (fingerprint : String) :
    Except Exn IdempotencyDecision → MemoryIdempotencyCoordinator → Prop
  | claimed {c' : MemoryIdempotencyCoordinator} {event : ℕ} (vacant : c.records key = none)
      (records : c'.records = Function.update c.records key (some ⟨fingerprint, none, false⟩))
      (events : c'.events = Function.update c.events key (some event)) :
    Decides c key fingerprint (.ok ⟨.claimed, none⟩) c'
  | conflict {c' : MemoryIdempotencyCoordinator} {record : IdempotencyRecord}
      (found : c.records key = some record) (differs : record.fingerprint ≠ fingerprint)
      (unmoved : c.Unmoved c') : Decides c key fingerprint (.ok ⟨.conflict, none⟩) c'
  | completed {c' : MemoryIdempotencyCoordinator} {record : IdempotencyRecord}
      (found : c.records key = some record) (same : record.fingerprint = fingerprint)
      (completed : record.completed = true) (unmoved : c.Unmoved c') :
    Decides c key fingerprint (.ok ⟨.completed, record.paymentId⟩) c'
  | lost {c' : MemoryIdempotencyCoordinator} {record : IdempotencyRecord} {x : Exn}
      (found : c.records key = some record) (pending : record.completed = false)
      (event : c.events key = none) : Decides c key fingerprint (.error x) c'
  | cancelled {c' : MemoryIdempotencyCoordinator} (unmoved : c.Unmoved c') :
    Decides c key fingerprint (.error .cancelled) c'

theorem acquire_reply {c c' : MemoryIdempotencyCoordinator} {t : Tid} {key : RecordKey}
    {fingerprint : String} {r : Except Exn IdempotencyDecision}
    (h : c.acquire t key fingerprint = .reply r c') : c.Decides key fingerprint r c' := by
  unfold acquire at h
  split at h
  · rename_i vacant
    cases h
    exact .claimed vacant rfl rfl
  · rename_i record found
    split at h
    · rename_i differs
      cases h
      exact .conflict found differs ⟨rfl, rfl⟩
    · rename_i same
      split at h
      · rename_i completed
        cases h
        exact .completed found (not_not.mp same) completed ⟨rfl, rfl⟩
      · rename_i pending
        split at h
        · cases h
        · rename_i event
          cases h
          exact .lost found (by simpa using pending) event

theorem decides_forget {c c' : MemoryIdempotencyCoordinator} {t : Tid} {key : RecordKey}
    {fingerprint : String} {r : Except Exn IdempotencyDecision}
    (h : (c.forget t).Decides key fingerprint r c') : c.Decides key fingerprint r c' := by
  cases h with
  | claimed vacant records events => exact .claimed vacant records events
  | conflict found differs unmoved => exact .conflict found differs ⟨unmoved.1, unmoved.2⟩
  | completed found same completed unmoved =>
    exact .completed found same completed ⟨unmoved.1, unmoved.2⟩
  | lost found pending event => exact .lost found pending event
  | cancelled unmoved => exact .cancelled ⟨unmoved.1, unmoved.2⟩

theorem acquire_wait {c c' : MemoryIdempotencyCoordinator} {t : Tid} {key : RecordKey}
    {fingerprint : String} (h : c.acquire t key fingerprint = .wait c') : c.Unmoved c' := by
  unfold acquire at h
  split at h
  · cases h
  · split at h
    · cases h
    · split at h
      · cases h
      · split at h <;> cases h
        exact ⟨rfl, rfl⟩

end MemoryIdempotencyCoordinator

/-- A coordinator about which nothing is known: it may answer anything, at any time. -/
def ExternalCoordinator.answer : (e : CoordinatorEffect) → Input →
    MemoryIdempotencyCoordinator → Answer e.Reply MemoryIdempotencyCoordinator
  | .acquire _ _, .decision answer, c => .reply answer c
  | .complete _ _ _, .done answer, c => .reply answer c
  | .abort _ _, .done answer, c => .reply answer c
  | _, .suspend, c => .wait c
  | _, _, _ => .refuse

end PySwitch
