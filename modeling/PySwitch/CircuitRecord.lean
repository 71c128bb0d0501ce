import PySwitch.Machine
import PySwitch.OutboxLog
import PySwitch.ServiceFootprint

namespace PySwitch.CircuitEvents

open Async Program Service OutboxLog

structure Transition where
  provider : Provider
  previous : CircuitState
  current : CircuitState
  deriving DecidableEq

/-- The change of state of a circuit, when it is one the outbox is told about. -/
def announced (p : Provider) (previous current : CircuitState) : Option Transition :=
  if previous ≠ current ∧ current ≠ .halfOpen then some ⟨p, previous, current⟩ else none

/-- The transition a call is recording: its circuit has moved and the outbox is not told yet. -/
def record (m : Option Transition) : (e : Effect) → e.Reply → Option Transition
  | .circuit (.allowRequest p), r => announced p r.2.1 r.2.2
  | .circuit (.recordSuccess p), r => announced p r.1 r.2
  | .circuit (.recordFailure p), r => announced p r.1 r.2
  | .store (.append _), _ => none
  | _, _ => m

def recording (trace : List ((e : Effect) × e.Reply)) : Option Transition :=
  trace.foldl (fun m ev => record m ev.1 ev.2) none

structure Tells (m : Transition) (event : EventEnvelope) : Prop where
  eventType_eq : event.eventType =
    if m.current = .opened then .providerCircuitOpened else .providerCircuitClosed
  provider_eq : event.provider = some m.provider
  payload_eq : event.payload = .circuit m.provider m.previous m.current

def OfCircuit (event : EventEnvelope) : Prop :=
  event.eventType = .providerCircuitOpened ∨ event.eventType = .providerCircuitClosed

instance (event : EventEnvelope) : Decidable (OfCircuit event) :=
  inferInstanceAs (Decidable (_ ∨ _))

/-- The events that can be appended while a transition is recorded, and while none is. -/
def Appends : Option Transition → List EventEnvelope → Prop
  | some m, events => ∃ event, events = [event] ∧ Tells m event
  | none, events => ∀ event ∈ events, ¬ OfCircuit event

/-- The identifiers a call has drawn and not used for an event, and the transition it records. -/
structure Stage where
  drawn : List Uuid
  recording : Option Transition

namespace Stage

def owns (g : Stage) (events : List EventEnvelope) : Prop :=
  (ids events).Nodup ∧ ∀ id ∈ ids events, id ∈ g.drawn

def use (g : Stage) (events : List EventEnvelope) : List Uuid :=
  g.drawn.filter fun id => id ∉ ids events

end Stage

def ok (g : Stage) : Effect → Prop
  | .host .now => True
  | .host .uuid4 => True
  | .store (.append events) => g.owns events ∧ Appends g.recording events
  | .store (.saveWithEvents _ events) =>
    g.owns events ∧ g.recording = none ∧ Appends none events
  | _ => g.recording = none

def may (g : Stage) : (e : Effect) → e.Reply → Prop
  | .host .uuid4, id => id ∉ g.drawn
  | _, _ => True

def draws (g : Stage) : (e : Effect) → e.Reply → List Uuid
  | .host .uuid4, id => id :: g.drawn
  | .store (.append events), _ => g.use events
  | .store (.saveWithEvents _ events), _ => g.use events
  | _, _ => g.drawn

def next (g : Stage) (e : Effect) (r : e.Reply) : Stage := ⟨draws g e r, record g.recording e r⟩

def protocol : Protocol Effect Effect.Reply Stage := ⟨ok, may, next⟩

/-- No transition is being recorded. -/
def Quiet (_ : Locals) (g : Stage) : Prop := g.recording = none

theorem quiet_neutral (s : Locals) (g : Stage) (e : Effect) (h : Quiet s g)
    (moves : ∀ c, e ≠ .circuit c) (saves : ¬ e.saving) :
    protocol.ok g e ∧ ∀ r, protocol.may g e r → Quiet s (protocol.next g e r) := by
  cases e with
  | host e => cases e <;> first | exact ⟨trivial, fun _ _ => h⟩ | exact ⟨h, fun _ _ => h⟩
  | circuit e => exact absurd rfl (moves e)
  | store e => cases e <;> first | exact absurd trivial saves | exact ⟨h, fun _ _ => h⟩
  | _ => exact ⟨h, fun _ _ => h⟩

theorem quiet_calling (s : Locals) (g : Stage) (e : Effect) (h : Quiet s g)
    (he : e.calling ∨ e.hosting) :
    protocol.ok g e ∧ ∀ r, protocol.may g e r → Quiet s (protocol.next g e r) := by
  apply quiet_neutral s g e h
  · rintro c rfl
    exact he.elim id id
  · cases e with
    | store e => exact (he.elim id id).elim
    | _ => exact id

theorem quiet_attending (s : Locals) (g : Stage) (e : Effect) (h : Quiet s g)
    (tries : ¬ e.attempting) (saves : ¬ e.saving) :
    protocol.ok g e ∧ ∀ r, protocol.may g e r → Quiet s (protocol.next g e r) := by
  apply quiet_neutral s g e h ?_ saves
  rintro c rfl
  exact tries trivial

section Attempt

variable {cfg : Config} (outbox : cfg.outbox ≠ .absent) (p : Provider)

include outbox

/-- A call that records a transition draws an identifier and tells the outbox. -/
theorem recorded_wp (previous current : CircuitState) {s : Locals} {g : Stage}
    (h : g.recording = announced p previous current) :
    wp protocol (onlyIf (previous ≠ current) (recordCircuitTransition cfg p previous current))
      (fun _ s' g' => Quiet s' g') s g := by
  rw [wp_onlyIf]
  split
  · rename_i moved
    simp only [recordCircuitTransition, newEvent, uuid4, now, perform, wp_onlyIf, wp_bind,
      wp_effect, orRaise_ok, wp_pure, wp_await]
    split
    · rename_i told
      have recorded : g.recording = some ⟨p, previous, current⟩ := by
        rw [h, announced, if_pos ⟨moved, told.2⟩]
      refine ⟨trivial, fun id _ => ⟨trivial, fun occurredAt _ => ⟨⟨⟨?_, ?_⟩, ?_⟩, fun r _ => ?_⟩⟩⟩
      · simp [ids]
      · intro x hx
        obtain rfl : x = id := by simpa [ids] using hx
        exact List.mem_cons_self ..
      · show Appends g.recording _
        rw [recorded]
        exact ⟨_, rfl, rfl, rfl, rfl⟩
      · cases r <;> rfl
    · rename_i untold
      show g.recording = none
      rw [h, announced, if_neg fun told => untold ⟨outbox, told.2⟩]
  · rename_i stays
    show g.recording = none
    rw [h, announced, if_neg fun told => stays told.1]

theorem allow_keeps : Keeps protocol Quiet (allowProvider cfg p) := by
  intro s g h
  simp only [allowProvider, perform, wp_bind, wp_effect, orRaise_ok]
  refine ⟨h, fun r _ => ?_⟩
  apply wp_mono (recorded_wp outbox p r.2.1 r.2.2 rfl)
  intro r s' g' quiet
  cases r with
  | error x => exact quiet
  | ok _ => simpa only [orRaise_ok, wp_pure] using quiet

theorem success_keeps : Keeps protocol Quiet (recordSuccess cfg p) := by
  intro s g h
  simp only [recordSuccess, perform, wp_bind, wp_effect, orRaise_ok]
  exact ⟨h, fun r _ => recorded_wp outbox p r.1 r.2 rfl⟩

theorem failure_keeps : Keeps protocol Quiet (recordFailure cfg p) := by
  intro s g h
  simp only [recordFailure, perform, wp_bind, wp_effect, orRaise_ok]
  exact ⟨h, fun r _ => recorded_wp outbox p r.1 r.2 rfl⟩

theorem operation_keeps (payment : Payment) (data : PaymentInput) :
    Keeps protocol Quiet (operation cfg p payment data) :=
  keeps_operation_of quiet_calling (fun _ _ _ h => h) (failure_keeps outbox)
    (fun _ _ _ _ h => ⟨h, fun _ _ => h⟩) (allow_keeps outbox) (success_keeps outbox) p payment data

end Attempt

section Save

variable {cfg : Config}

theorem save_wp (payment : Payment) (events : List EventEnvelope) {s : Locals} {g : Stage}
    (quiet : g.recording = none) (owned : g.owns events) (foreign : Appends none events) :
    wp protocol (save cfg payment events) (fun _ s' g' => Quiet s' g') s g := by
  have appends : Appends g.recording events := quiet ▸ foreign
  unfold save
  simp only [wp_ite, wp_bind, perform, wp_await, wp_effect]
  split
  · refine ⟨⟨owned, quiet, foreign⟩, fun r _ => ?_⟩
    cases r <;> exact quiet
  · refine ⟨quiet, fun r _ => ?_⟩
    cases r with
    | error x => exact quiet
    | ok _ =>
      simp only [orRaise_ok, wp_onlyIf, wp_await, wp_effect]
      split
      · refine ⟨⟨owned, appends⟩, fun r _ => ?_⟩
        cases r <;> rfl
      · exact quiet

theorem paymentEvents_keeps (payment : Payment) {last : EventType}
    (outcome : last = .paymentSucceeded ∨ last = .paymentFailed) :
    Keeps protocol Quiet (do
      let events ← paymentEvents payment last
      save cfg payment events) := by
  intro s g h
  simp only [paymentEvents, paymentEvent, newEvent, uuid4, now, perform, wp_bind, wp_effect,
    orRaise_ok, wp_pure]
  refine ⟨trivial, fun first _ => ⟨trivial, fun _ _ => ⟨trivial, fun second h₂ => ⟨trivial,
    fun _ _ => ⟨trivial, fun third h₃ => ⟨trivial, fun _ _ => ?_⟩⟩⟩⟩⟩⟩
  have h₂ : second ∉ first :: g.drawn := h₂
  have h₃ : third ∉ second :: first :: g.drawn := h₃
  apply save_wp payment
  · exact h
  · constructor
    · simp only [List.mem_cons, not_or] at h₂ h₃
      simp [ids, Ne.symm h₂.1, Ne.symm h₃.1, Ne.symm h₃.2.1]
    · intro id hid
      show id ∈ third :: second :: first :: g.drawn
      simp only [ids, List.map_cons, List.map_nil, List.mem_cons, List.not_mem_nil, or_false] at hid
      obtain rfl | rfl | rfl := hid <;> simp
  · intro event he
    simp only [List.mem_cons, List.not_mem_nil, or_false] at he
    obtain rfl | rfl | rfl := he
    · simp [OfCircuit]
    · simp [OfCircuit]
    · obtain rfl | rfl := outcome <;> simp [OfCircuit]

theorem refunded_keeps (payment : Payment) (refund : Refund) : Keeps protocol Quiet (do
    let event ← paymentEvent payment .paymentRefunded payment.status
    save cfg payment [event]
    return refund) := by
  intro s g h
  simp only [paymentEvent, newEvent, uuid4, now, perform, wp_bind, wp_effect, orRaise_ok, wp_pure]
  refine ⟨trivial, fun id _ => ⟨trivial, fun _ _ => ?_⟩⟩
  refine wp_mono (save_wp payment _ ?_ ?_ ?_) ?_
  · exact h
  · constructor
    · simp [ids]
    · intro x hx
      obtain rfl : x = id := by simpa [ids] using hx
      exact List.mem_cons_self ..
  · intro event he
    obtain rfl := List.mem_singleton.mp he
    simp [OfCircuit]
  · intro r s' g' quiet
    cases r <;> exact quiet

end Save

def discipline : Discipline Call Effect Effect.Reply (Except Exn Result) Stage :=
  ⟨fun _ => protocol, fun _ => ⟨[], none⟩, fun _ _ g => g.recording = none⟩

theorem run_follows {cfg : Config} (outbox : cfg.outbox ≠ .absent) (c : Call) :
    ((c.run cfg).start {}).Follows protocol (discipline.post c) (discipline.first c) := by
  apply start_follows
  cases c with
  | create data =>
    refine keeps_bind (keeps_create_of quiet_attending (fun _ _ _ h => h)
      (fun p => operation_keeps outbox p) ?_ data) (fun _ => keeps_pure _) {} _ rfl
    intro data fingerprint payment last outcome
    exact keeps_finish_of quiet_attending (fun _ _ _ h => h) data fingerprint payment last
      (paymentEvents_keeps payment outcome)
  | refund paymentId amount =>
    exact keeps_bind (keeps_refund_of quiet_attending paymentId amount refunded_keeps)
      (fun _ => keeps_pure _) {} _ rfl
  | recover provider =>
    exact keeps_bind (success_keeps outbox provider) (fun _ => keeps_pure _) {} _ rfl

end PySwitch.CircuitEvents
