import PySwitch.LedgerProtocol
import PySwitch.OutboxLog
import PySwitch.ServiceOutcome

namespace PySwitch.Lifecycle

open Async Program Service OutboxLog

structure Tells (id : Uuid) (eventType : EventType) (status : PaymentStatus)
    (event : EventEnvelope) : Prop where
  eventType_eq : event.eventType = eventType
  aggregateId_eq : event.aggregateId = some id
  payload_eq : event.payload = .payment id status

/-- The last event of a payment that is saved for the first time. -/
def Outcome (p : Payment) (event : EventEnvelope) : Prop :=
  p.status = .succeeded ∧ Tells p.id .paymentSucceeded .succeeded event ∨
    p.status = .failed ∧ Tells p.id .paymentFailed .failed event

/-- The events a payment is saved with for the first time. -/
def Opening (p : Payment) (events : List EventEnvelope) : Prop :=
  ∃ created processing final, events = [created, processing, final] ∧
    Tells p.id .paymentCreated .processing created ∧
    Tells p.id .paymentProcessing .processing processing ∧ Outcome p final

/-- Where a call is with its payment: a new one drafted, or a stored one found and refunded. -/
inductive Mode where
  | rest
  | ordered
  | draft (id : Uuid)
  | found (id : Uuid)
  | applying (payment : Payment)

namespace Mode

def applies : Mode → Prop
  | .applying _ => True
  | _ => False

def saves : Mode → Payment → List EventEnvelope → Prop
  | .draft id, p, events => p.id = id ∧ p.refunds = [] ∧ Opening p events
  | .applying q, p, events => ∃ refund event, p = applyRefund q refund ∧ events = [event] ∧
      Tells p.id .paymentRefunded p.status event
  | _, _, _ => False

def find : Mode → Payment → Mode
  | .rest, p => .found p.id
  | m, _ => m

end Mode

/-- The identifiers a call has drawn for its events and not used yet go with its mode. -/
structure Stage where
  drawn : List Uuid
  mode : Mode

namespace Stage

def owns (g : Stage) (events : List EventEnvelope) : Prop :=
  (ids events).Nodup ∧ ∀ id ∈ ids events, id ∈ g.drawn

/-- The first identifier a new payment is given is its own. -/
def draw (g : Stage) (id : Uuid) : Stage :=
  match g.mode with
  | .ordered => ⟨g.drawn, .draft id⟩
  | m => ⟨id :: g.drawn, m⟩

def use (g : Stage) (events : List EventEnvelope) : Stage :=
  ⟨g.drawn.filter (fun id => id ∉ ids events), g.mode⟩

theorem draw_of_ne {g : Stage} (h : g.mode ≠ .ordered) (id : Uuid) :
    g.draw id = ⟨id :: g.drawn, g.mode⟩ := by
  obtain ⟨drawn, mode⟩ := g
  cases mode with
  | ordered => exact absurd rfl h
  | _ => rfl

end Stage

def ok (profile : Profile) (g : Stage) : Effect → Prop
  | .host .now => True
  | .host .uuid4 => True
  | .store (.append events) =>
    g.owns events ∧ (∀ event ∈ events, event.aggregateId = none) ∧ ¬ g.mode.applies
  | .store (.saveWithEvents p events) => g.owns events ∧ g.mode.saves p events
  | .store (.save _) => False
  | .store (.reread p) => g.mode = .found p.id
  | .coordinator _ => profile.coordinator = .memory ∧ ¬ g.mode.applies
  | _ => ¬ g.mode.applies

def may (g : Stage) : (e : Effect) → e.Reply → Prop
  | .host .uuid4, id => id ∉ g.drawn
  | .store (.saveWithEvents _ _), .error x => ∀ error, x ≠ .provider error
  | .store (.reread p), q => q.id = p.id
  | .coordinator (.complete _ _ _), .error x => ∀ error, x ≠ .provider error
  | _, _ => True

def next (g : Stage) : (e : Effect) → e.Reply → Stage
  | .host .uuid4, id => g.draw id
  | .store (.append events), _ => g.use events
  | .store (.saveWithEvents _ events), _ => { g.use events with mode := .rest }
  | .store (.get _), .ok (some p) => { g with mode := g.mode.find p }
  | .store (.reread _), q => { g with mode := .applying q }
  | _, _ => g

def protocol (profile : Profile) : Protocol Effect Effect.Reply Stage := ⟨ok profile, may, next⟩

section Working

-- What holds of the local variables and the mode while events are drawn and appended.
variable {profile : Profile} {cfg : Config} {J : Locals → Mode → Prop}
  (working : ∀ s m, J s m → m ≠ .ordered ∧ ¬ m.applies)

include working

theorem working_neutral (s : Locals) (g : Stage) (e : Effect) (h : J s g.mode)
    (he : e.trying ∨ e.hosting) : (protocol profile).ok g e ∧
      ∀ r, (protocol profile).may g e r → J s ((protocol profile).next g e r).mode := by
  obtain ⟨drawing, calm⟩ := working s g.mode h
  cases e with
  | host e =>
    cases e with
    | now => exact ⟨trivial, fun _ _ => h⟩
    | uuid4 =>
      refine ⟨trivial, fun id _ => ?_⟩
      show J s (g.draw id).mode
      rwa [Stage.draw_of_ne drawing]
    | _ => exact (he.elim id id).elim
  | circuit e => exact ⟨calm, fun _ _ => h⟩
  | stats e => exact ⟨calm, fun _ _ => h⟩
  | semaphore e => exact ⟨calm, fun _ _ => h⟩
  | provider e =>
    cases e with
    | startPayment => exact ⟨calm, fun _ _ => h⟩
    | _ => exact (he.elim id id).elim
  | _ => exact (he.elim id id).elim

theorem working_record (provider : Provider) (previous current : CircuitState) :
    Keeps (protocol profile) (fun s g => J s g.mode)
      (recordCircuitTransition cfg provider previous current) := by
  intro s g h
  obtain ⟨drawing, calm⟩ := working s g.mode h
  simp only [recordCircuitTransition, newEvent, uuid4, now, perform, wp_onlyIf, wp_bind,
    wp_effect, wp_await, orRaise_ok, wp_pure]
  split
  · refine ⟨trivial, fun id _ => ⟨trivial, fun occurredAt _ => ⟨⟨⟨?_, ?_⟩, ?_, ?_⟩, fun r _ => ?_⟩⟩⟩
    · simp [ids]
    · intro x hx
      obtain rfl : x = id := by simpa [ids] using hx
      show x ∈ (g.draw x).drawn
      rw [Stage.draw_of_ne drawing]
      exact List.mem_cons_self ..
    · intro event hevent
      obtain rfl := List.mem_singleton.mp hevent
      rfl
    · show ¬ (g.draw id).mode.applies
      rwa [Stage.draw_of_ne drawing]
    · have mode : (g.draw id).mode = g.mode := by rw [Stage.draw_of_ne drawing]
      have h' : J s (g.draw id).mode := mode ▸ h
      cases r <;> exact h'
  · exact h

end Working

section Create

variable {profile : Profile} {cfg : Config}

/-- The payment a call has drawn and not saved. -/
def Drafted (s : Locals) (m : Mode) : Prop :=
  ∃ p, s.payment = some p ∧ p.refunds = [] ∧ m = .draft p.id

def Calm (_ : Locals) (g : Stage) : Prop := ¬ g.mode.applies

theorem drafted_working (s : Locals) (m : Mode) (h : Drafted s m) :
    m ≠ .ordered ∧ ¬ m.applies := by
  obtain ⟨p, -, -, rfl⟩ := h
  exact ⟨nofun, id⟩

theorem drafted_perform {e : Effect} (hok : ∀ g, ¬ g.mode.applies → ok profile g e)
    (hn : ∀ g r, (next g e r).mode = g.mode) :
    Keeps (protocol profile) (fun s g => Drafted s g.mode) (perform e) := by
  intro s g h
  refine ⟨hok g (drafted_working s g.mode h).2, fun r _ => ?_⟩
  show Drafted s (next g e r).mode
  rwa [hn]

theorem keeps_visit (payment : Payment) (provider : Provider) (data : PaymentInput) :
    Keeps (protocol profile) (fun s g => Drafted s g.mode)
      (attemptProvider cfg payment provider data) := by
  have neutral := @working_neutral profile _ drafted_working
  apply keeps_attemptProvider
  · exact fun _ _ _ h => h
  · rintro s g ⟨p, hp, refunds, mode⟩
    exact ⟨{ p with attempts := p.attempts ++ s.attempts }, by rw [extendAttempts, hp]; rfl,
      refunds, mode⟩
  · apply keeps_operation neutral
    · exact working_record drafted_working
    · exact fun _ _ _ h => h
    · exact fun s g p paymentId h => ⟨(drafted_working s g.mode h).2, fun _ _ => h⟩
  · exact drafted_perform (fun _ h => h) fun _ _ => rfl
  · exact fun _ => keeps_await (drafted_perform (fun _ h => h) fun _ _ => rfl)

theorem paymentEvents_wp (p : Payment) (last : EventType) {s : Locals} {g : Stage}
    (mode : g.mode = .draft p.id)
    (outcome : ∀ event, Tells p.id last p.status event → Outcome p event) :
    wp (protocol profile) (paymentEvents p last)
      (fun r _ g' => g'.mode = .draft p.id ∧ ∃ events, r = .ok events ∧ events ≠ [] ∧
        Opening p events ∧ g'.owns events) s g := by
  obtain ⟨drawn, m⟩ := g
  obtain rfl : m = .draft p.id := mode
  simp only [paymentEvents, paymentEvent, newEvent, uuid4, now, perform, wp_bind, wp_effect,
    orRaise_ok, wp_pure]
  refine ⟨trivial, fun first h₁ => ⟨trivial, fun _ _ => ⟨trivial, fun second h₂ => ⟨trivial,
    fun _ _ => ⟨trivial, fun third h₃ => ⟨trivial, fun _ _ => ⟨rfl, _, rfl, List.cons_ne_nil _ _,
    ⟨_, _, _, rfl, ⟨rfl, rfl, rfl⟩, ⟨rfl, rfl, rfl⟩, outcome _ ⟨rfl, rfl, rfl⟩⟩, ?_⟩⟩⟩⟩⟩⟩⟩
  have h₂ : second ∉ first :: drawn := h₂
  have h₃ : third ∉ second :: first :: drawn := h₃
  constructor
  · simp only [List.mem_cons, not_or] at h₂ h₃
    simp [ids, Ne.symm h₂.1, Ne.symm h₃.1, Ne.symm h₃.2.1]
  · intro id hid
    show id ∈ third :: second :: first :: drawn
    simp only [ids, List.map_cons, List.map_nil, List.mem_cons, List.not_mem_nil, or_false] at hid
    obtain rfl | rfl | rfl := hid <;> simp

/-- The effects of a coordinator that is really there. -/
def claiming (profile : Profile) (e : Effect) : Prop := e.coordinating ∧ Ledger.plain profile e

theorem claiming_neutral {g : Stage} {e : Effect} (calm : ¬ g.mode.applies)
    (he : claiming profile e) : ok profile g e ∧ ∀ r, next g e r = g := by
  cases e with
  | coordinator e => exact ⟨⟨he.2, calm⟩, fun _ => rfl⟩
  | redis e => exact ⟨calm, fun _ => rfl⟩
  | _ => exact he.1.elim

theorem keeps_claiming {α : Type} {m : Service α} {J : Stage → Prop} (h : Uses (claiming profile) m)
    (calm : ∀ g, J g → ¬ g.mode.applies) : Keeps (protocol profile) (fun _ g => J g) m :=
  keeps_of_uses h fun s g e hg he => by
    obtain ⟨hok, hn⟩ := claiming_neutral (calm g hg) he
    exact ⟨hok, fun r _ => by rwa [show (protocol profile).next g e r = g from hn r]⟩

variable (reliable : Ledger.Reliable profile cfg.coordinator) (outbox : cfg.outbox = .store)

include reliable in
theorem complete_wp (key : RecordKey) (fingerprint : String) (paymentId : Uuid) {s : Locals}
    {g : Stage} (calm : ¬ g.mode.applies) :
    wp (protocol profile) (cfg.coordinator.complete key fingerprint paymentId)
      (fun r _ g' => (∀ error, r ≠ .error (.provider error)) ∧ ¬ g'.mode.applies) s g := by
  have uses : Uses (claiming profile) (cfg.coordinator.complete key fingerprint paymentId) :=
    uses_and (cfg.coordinator.complete_uses _ _ _) (reliable.complete _ _ _)
  apply wp_of_uses_ends (J := fun g' => ¬ g'.mode.applies) uses (reliable.complete_ends _ _ _)
  · intro g' e calm he
    obtain ⟨hok, hn⟩ := claiming_neutral calm he
    refine ⟨hok, fun r hr => ⟨?_, by rwa [show (protocol profile).next g' e r = g' from hn r]⟩⟩
    cases e with
    | coordinator e =>
      cases e with
      | complete =>
        cases r with
        | ok => trivial
        | error x => exact hr
      | _ => trivial
    | redis e => trivial
    | _ => exact he.1.elim
  · exact calm
  · exact fun r g' ends calm => ⟨ends, calm⟩

include outbox in
theorem save_wp (p : Payment) (events : List EventEnvelope) {s : Locals} {g : Stage}
    (some : events ≠ []) (owned : g.owns events) (saves : g.mode.saves p events) :
    wp (protocol profile) (save cfg p events)
      (fun r _ g' => (∀ error, r ≠ .error (.provider error)) ∧ ¬ g'.mode.applies) s g := by
  unfold save
  rw [if_pos ⟨some, outbox⟩]
  simp only [perform, wp_await, wp_effect]
  refine ⟨⟨owned, saves⟩, fun r hr => ?_⟩
  cases r with
  | ok => exact ⟨nofun, id⟩
  | error x => exact ⟨fun error h => hr error (Except.error.inj h), id⟩

include reliable outbox

theorem finish_wp (data : PaymentInput) (fingerprint : String) (p : Payment) (last : EventType)
    {s : Locals} {g : Stage} (refunds : p.refunds = []) (mode : g.mode = .draft p.id)
    (outcome : ∀ event, Tells p.id last p.status event → Outcome p event) :
    wp (protocol profile) (finish cfg data fingerprint p last)
      (fun r s' g' => (∀ error, r ≠ .error (.provider error)) ∧ Calm s' g') s g := by
  simp only [finish, wp_bind, wp_modify, orRaise_ok]
  apply wp_mono (paymentEvents_wp p last mode outcome)
  rintro _ s' g' ⟨mode', events, rfl, some, opening, owned⟩
  simp only [orRaise_ok, wp_bind]
  apply wp_mono (save_wp outbox p events some owned (by rw [mode']; exact ⟨rfl, refunds, opening⟩))
  rintro r s' g' ⟨hr, calm⟩
  cases r with
  | error x => exact ⟨fun error h => hr error (by cases h; rfl), calm⟩
  | ok =>
    simp only [orRaise_ok, wp_bind]
    apply wp_mono (complete_wp reliable data.key fingerprint p.id calm)
    rintro r s' g' ⟨hr, calm⟩
    cases r with
    | error x => exact ⟨fun error h => hr error (by cases h; rfl), calm⟩
    | ok => exact ⟨fun error h => (by cases h), calm⟩

theorem orchestrate_calm (data : PaymentInput) (fingerprint : String) {s : Locals} {g : Stage}
    (mode : g.mode = .ordered) :
    wp (protocol profile) (orchestrate cfg data fingerprint) (fun _ s' g' => Calm s' g') s g := by
  have left (s : Locals) (g : Stage) (h : Drafted s g.mode) : Calm s g := (drafted_working _ _ h).2
  apply wp_mono (Service.orchestrate_wp (I := fun s g => Drafted s g.mode)
    (M := fun s g => Drafted s g.mode) (L := Calm) (J := fun _ => Calm) (K := fun _ => Calm)
    left ?_ ?_ ?_ ?_ ?_ ?_ ?_)
  · intro r s g h
    cases r with
    | ok p => exact h
    | error x => exact h.elim id fun ⟨_, _, _, h⟩ => h
  · intro payment provider s g h
    apply wp_mono (keeps_visit payment provider data s g h)
    intro r s' g' h
    cases r <;> exact h
  · rintro payment provider result s g ⟨p, hp, refunds, mode⟩
    simp only [hp, Option.getD_some]
    refine wp_mono (finish_wp reliable outbox data fingerprint _ .paymentSucceeded ?_ mode
      fun event tells => .inl ⟨rfl, tells⟩) ?_
    · exact refunds
    rintro r s' g' ⟨hr, calm⟩
    cases r with
    | ok => exact calm
    | error x =>
      cases x with
      | provider error => exact absurd rfl (hr error)
      | _ => exact calm
  · exact fun _ _ _ h => h
  · obtain ⟨drawn, m⟩ := g
    obtain rfl : m = .ordered := mode
    simp only [newPayment, uuid4, now, perform, wp_bind, wp_effect]
    exact ⟨trivial, fun id _ => ⟨trivial, fun _ _ => ⟨trivial, fun _ _ =>
      ⟨_, rfl, _, rfl, rfl, rfl⟩⟩⟩⟩
  · exact keeps_of_uses (uses_healthyProviders _) fun s g e h he => by
      obtain ⟨provider, rfl⟩ := he
      exact ⟨left s g h, fun _ _ => h⟩
  · exact fun _ => keeps_await (drafted_perform (fun _ h => h) fun _ _ => rfl)
  · rintro payment s g ⟨p, hp, refunds, mode⟩
    simp only [hp, Option.getD_some]
    refine wp_mono (finish_wp reliable outbox data fingerprint _ .paymentFailed ?_ mode
      fun event tells => .inr ⟨rfl, tells⟩) ?_
    · exact refunds
    rintro r s' g' ⟨-, calm⟩
    cases r <;> exact calm

theorem createClaimed_calm (data : PaymentInput) (fingerprint : String) {s : Locals} {g : Stage}
    (mode : g.mode = .ordered) :
    wp (protocol profile) (createClaimed cfg data fingerprint) (fun _ s' g' => Calm s' g') s g := by
  have calm : ¬ g.mode.applies := by rw [mode]; exact id
  simp only [createClaimed, perform, wp_bind, wp_await, wp_effect]
  refine ⟨calm, fun r _ => ?_⟩
  cases r with
  | error x => exact calm
  | ok existing =>
    cases existing with
    | none => exact orchestrate_calm reliable outbox data fingerprint mode
    | some existing =>
      simp only [orRaise_ok, wp_ite, wp_raise]
      split
      · exact calm
      · rw [wp_bind]
        apply wp_mono (complete_wp reliable data.key fingerprint existing.id (g := g) calm)
        rintro r s' g' ⟨-, calm⟩
        cases r <;> exact calm

theorem create_wp (data : PaymentInput) {s : Locals} {g : Stage} (mode : g.mode = .ordered) :
    wp (protocol profile) (create cfg data) (fun _ s' g' => Calm s' g') s g := by
  have ordered {g : Stage} (mode : g.mode = .ordered) : ¬ g.mode.applies := by
    rw [mode]
    exact id
  have acquire := @keeps_claiming profile _ _ (fun g => g.mode = .ordered)
    (uses_and (cfg.coordinator.acquire_uses data.key (requestFingerprint cfg.sha256 data))
      (reliable.acquire _ _)) fun _ => ordered
  simp only [create, wp_bind]
  apply wp_mono (acquire s g mode)
  intro r s g mode
  cases r with
  | error x => exact ordered mode
  | ok decision =>
    obtain ⟨status, paymentId⟩ := decision
    cases status with
    | conflict => exact ordered mode
    | completed =>
      simp only [orRaise_ok, replay, storedResult, wp_bind]
      cases paymentId with
      | none => exact ordered mode
      | some paymentId =>
        simp only [Service.get, perform, wp_await, wp_effect]
        refine ⟨ordered mode, fun r _ => ?_⟩
        have found (p : Payment) : (g.mode.find p) = .ordered := by rw [mode]; rfl
        obtain x | (_ | p) := r
        · exact ordered mode
        · exact ordered mode
        · exact ordered (g := { g with mode := g.mode.find p }) (found p)
    | claimed =>
      simp only [orRaise_ok, wp_bind, wp_modify, wp_attempt]
      apply wp_mono (createClaimed_calm reliable outbox data _ mode)
      intro r s g calm
      cases r with
      | ok p => exact calm
      | error x =>
        simp only [orRaise_ok, release, wp_bind, wp_get, wp_onlyIf, wp_attempt]
        split
        · have abort := @keeps_claiming profile _ _ (fun g => ¬ g.mode.applies)
            (uses_and (cfg.coordinator.abort_uses data.key (requestFingerprint cfg.sha256 data))
              (reliable.abort _ _)) fun _ h => h
          apply wp_mono (abort s g calm)
          intro r s g calm
          split <;> exact calm
        · exact calm

end Create

section Refund

variable {profile : Profile} {cfg : Config} (outbox : cfg.outbox = .store)

include outbox

theorem refundLocked_wp (paymentId : Uuid) (amount : Option ℤ) {s : Locals} {g : Stage}
    (mode : g.mode = .rest) :
    wp (protocol profile) (refundLocked cfg paymentId amount) (fun _ s' g' => Calm s' g') s g := by
  obtain ⟨drawn, m⟩ := g
  obtain rfl : m = .rest := mode
  simp only [refundLocked, Service.get, perform, wp_bind, wp_await, wp_effect]
  refine ⟨id, fun r _ => ?_⟩
  obtain x | (_ | p) := r
  · exact id
  · exact id
  simp only [orRaise_ok, wp_ite, wp_raise]
  split
  · exact id
  split
  · exact id
  split
  · exact id
  simp only [wp_bind, wp_effect]
  refine ⟨id, fun _ _ => ?_⟩
  simp only [orRaise_ok, wp_bind, wp_await, wp_effect]
  refine ⟨id, fun r _ => ?_⟩
  cases r with
  | error x => exact id
  | ok result =>
    simp only [orRaise_ok, uuid4, now, perform, paymentEvent, newEvent, wp_bind, wp_effect, wp_pure]
    refine ⟨trivial, fun refundId _ => ⟨trivial, fun createdAt _ => ⟨rfl, fun q _ =>
      ⟨trivial, fun eventId _ => ⟨trivial, fun occurredAt _ => ?_⟩⟩⟩⟩⟩
    refine wp_mono (save_wp outbox _ _ (List.cons_ne_nil _ _) ?_
      ⟨_, _, rfl, rfl, rfl, rfl, rfl⟩) ?_
    · constructor
      · simp [ids]
      · intro id hid
        obtain rfl : id = eventId := by simpa [ids] using hid
        exact List.mem_cons_self ..
    · rintro r s' g' ⟨-, calm⟩
      cases r <;> exact calm

theorem refund_wp (paymentId : Uuid) (amount : Option ℤ) {s : Locals} {g : Stage}
    (mode : g.mode = .rest) :
    wp (protocol profile) (refund cfg paymentId amount) (fun _ s' g' => Calm s' g') s g := by
  have calm : ¬ g.mode.applies := by rw [mode]; exact id
  simp only [refund, perform, wp_bind, wp_await, wp_effect]
  refine ⟨calm, fun r _ => ?_⟩
  cases r with
  | error x => exact calm
  | ok =>
    simp only [orRaise_ok, wp_ensure]
    apply wp_mono (refundLocked_wp outbox paymentId amount (g := g) mode)
    intro r s' g' calm
    exact ⟨calm, fun _ _ => calm⟩

end Refund

def first : Call → Stage
  | .create _ => ⟨[], .ordered⟩
  | _ => ⟨[], .rest⟩

def discipline (profile : Profile) :
    Discipline Call Effect Effect.Reply (Except Exn Result) Stage :=
  ⟨fun _ => protocol profile, first, fun _ _ g => ¬ g.mode.applies⟩

theorem run_follows {profile : Profile} {cfg : Config}
    (reliable : Ledger.Reliable profile cfg.coordinator) (outbox : cfg.outbox = .store) (c : Call) :
    ((c.run cfg).start {}).Follows (protocol profile) (fun _ g => ¬ g.mode.applies) (first c) := by
  apply start_follows
  cases c with
  | create data =>
    simp only [Call.run, wp_bind]
    apply wp_mono (create_wp reliable outbox data rfl)
    intro r s g calm
    cases r <;> exact calm
  | refund paymentId amount =>
    simp only [Call.run, wp_bind]
    apply wp_mono (refund_wp outbox paymentId amount rfl)
    intro r s g calm
    cases r <;> exact calm
  | recover provider =>
    have working (s : Locals) (m : Mode) (h : m = .rest) : m ≠ .ordered ∧ ¬ m.applies := by
      subst h
      exact ⟨nofun, id⟩
    have neutral := @working_neutral profile (fun _ m => m = .rest) working
    have record : Keeps (protocol profile) (fun _ g => g.mode = .rest)
        (Service.recordSuccess cfg provider) :=
      keeps_bind (keeps_trying neutral trivial) fun _ =>
        keeps_onlyIf (working_record (J := fun _ m => m = .rest) working _ _ _)
    simp only [Call.run, wp_bind]
    apply wp_mono (record _ _ rfl)
    intro r s g mode
    have calm : ¬ g.mode.applies := (working s _ mode).2
    cases r <;> exact calm

end PySwitch.Lifecycle
