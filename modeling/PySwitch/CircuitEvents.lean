import Mathlib.Data.List.Forall2
import PySwitch.CircuitHistory
import PySwitch.CircuitRecord
import PySwitch.Recovery

namespace PySwitch.CircuitEvents

open Async OutboxLog CircuitHistory Scenario

/-- The transitions of a circuit that the outbox is told about, the earliest first. -/
def transitions (p : Provider) : List Happening → List Transition
  | [] => []
  | .transition _ q previous current :: log =>
    transitions p log ++ if q = p then (announced q previous current).toList else []
  | _ :: log => transitions p log

def circuitEvents (p : Provider) (events : List EventEnvelope) : List EventEnvelope :=
  events.filter fun event => event.provider = some p ∧ OfCircuit event

/-- The part of a transition in recording that is about a provider. -/
def about (p : Provider) (m : Option Transition) : List Transition :=
  m.toList.filter fun m => m.provider = p

section Logs

variable {p q : Provider} {log : List Happening} {events : List EventEnvelope} {m : Transition}

theorem transitions_other {x : Happening} (hx : x.ofCircuit = false) :
    transitions p (x :: log) = transitions p log := by
  cases x <;> first | rfl | cases hx

theorem about_announced (previous current : CircuitState) :
    about q (announced p previous current) =
      if p = q then (announced p previous current).toList else [] := by
  unfold about announced
  split
  · by_cases same : p = q <;> simp [same]
  · simp

theorem circuitEvents_append (a b : List EventEnvelope) :
    circuitEvents p (a ++ b) = circuitEvents p a ++ circuitEvents p b := List.filter_append ..

theorem circuitEvents_foreign (h : Appends none events) : circuitEvents p events = [] := by
  rw [circuitEvents, List.filter_eq_nil_iff]
  intro event he
  simp [h event he]

theorem Tells.ofCircuit {event : EventEnvelope} (h : Tells m event) : OfCircuit event := by
  unfold OfCircuit
  rw [h.eventType_eq]
  split
  · exact .inl rfl
  · exact .inr rfl

theorem Tells.told {event : EventEnvelope} (h : Tells m event) :
    List.Forall₂ Tells (about p (some m)) (circuitEvents p [event]) := by
  have provider := h.provider_eq
  have kind := h.ofCircuit
  by_cases same : m.provider = p
  · simpa [about, circuitEvents, provider, same, kind] using h
  · simp [about, circuitEvents, provider, same]

theorem transitions_moveCircuit (w : World) (t : Tid) (c : CircuitBreaker) :
    transitions q (w.moveCircuit t p c).log =
      transitions q w.log ++ about q (announced p (w.circuit p).state c.state) := by
  rw [about_announced]
  obtain ⟨h, same⟩ | ⟨h, -⟩ := moveCircuit_log (t := t) (p := p) w c
  · have stays : announced p (w.circuit p).state c.state = none := if_neg fun h => h.1 same.symm
    rw [h, stays]
    simp
  · rw [h, transitions]

end Logs

/-- The outbox tells of all transitions but the one in recording. -/
def Told (w : World) (m : Option Transition) (p : Provider) : Prop :=
  ∃ told, List.Forall₂ Tells told (circuitEvents p w.store.events) ∧
    transitions p w.log = told ++ about p m

/-- A circuit is closed when the last transition the outbox is told about closed it. -/
def Reproduced (w : World) (p : Provider) : Prop :=
  (w.circuit p).state = .closed ↔
    ∀ m, (transitions p w.log).getLast? = some m → m.current = .closed

structure Books (w : World) (m : Option Transition) : Prop where
  known : ∀ {id}, id ∈ ids w.store.events → id < w.shared.nextUuid
  told : ∀ p, Told w m p
  reproduced : ∀ p, Reproduced w p

abbrev Statuses : Type := Tid → Option (Status Call Stage)

/-- The transition the running task records. -/
def current (v : Option Tid) (st : Statuses) : Option Transition :=
  (v.bind st).bind fun u => u.phase.recording

structure Inv (w : World) (v : Option Tid) (st : Statuses) : Prop where
  books : Books w (current v st)
  running : ∀ {t u}, st t = some u → u.phase.recording ≠ none → v = some t
  drawn : ∀ {t u id}, st t = some u → id ∈ u.phase.drawn →
    id < w.shared.nextUuid ∧ id ∉ ids w.store.events
  apart : ∀ {t t' u u' id}, st t = some u → st t' = some u' → id ∈ u.phase.drawn →
    id ∈ u'.phase.drawn → t = t'

/-- Nothing has changed for the outbox and the circuits. -/
structure Same (w w' : World) : Prop where
  events : w'.store.events = w.store.events
  nextUuid : w'.shared.nextUuid = w.shared.nextUuid
  circuits : w'.process.circuits = w.process.circuits
  transitions : ∀ p, transitions p w'.log = transitions p w.log

theorem Same.circuit {w w' : World} (h : Same w w') (p : Provider) : w'.circuit p = w.circuit p :=
  congrFun h.circuits p

theorem Same.books {w w' : World} {m : Option Transition} (h : Same w w') (hw : Books w m) :
    Books w' m := by
  constructor
  · intro id hid
    rw [h.nextUuid]
    exact hw.known (h.events ▸ hid)
  · intro p
    unfold Told
    rw [h.events, h.transitions]
    exact hw.told p
  · intro p
    unfold Reproduced
    rw [h.circuit, h.transitions]
    exact hw.reproduced p

/-- The effects that know of neither the circuits nor the outbox nor the identifiers. -/
def quiet : Effect → Prop
  | .host .uuid4 => False
  | .circuit _ => False
  | .store _ => False
  | _ => True

theorem quiet_same {e : Effect} {w w' : World} (h : e.Touches w w') (he : quiet e) : Same w w' := by
  have circuit : ∀ c, e ≠ .circuit c := by
    rintro c rfl
    exact he
  constructor
  · rw [h.store]
    rintro a rfl
    exact he
  · apply h.nextUuid
    rintro rfl
    exact he
  · exact h.circuits circuit
  · intro p
    obtain same | ⟨x, hx, noted⟩ := h.log circuit
    · rw [same]
    · rw [noted, transitions_other hx]

theorem outside_same {a : Outside} {w w' : World} (h : a.apply w = some w') : Same w w' :=
  have frame := outside_frame h
  ⟨by rw [frame.store], frame.nextUuid, frame.circuits, fun p => by rw [frame.log]⟩

/-- A circuit that moves is announced, unless it lets a first probe through. -/
theorem reproduced_move {w : World} {t : Tid} {p q : Provider} {c : CircuitBreaker}
    (moved : Moved (w.circuit p).state c.state) (h : Reproduced w q) :
    Reproduced (w.moveCircuit t p c) q := by
  unfold Reproduced at h ⊢
  rw [transitions_moveCircuit, about_announced, circuit_moveCircuit]
  by_cases here : p = q
  · subst here
    simp only [if_true]
    generalize (w.circuit p).state = before at *
    generalize c.state = after at *
    cases moved with
    | stays => simpa [announced] using h
    | probes => simpa [announced] using h
    | opens =>
      by_cases same : before = .opened
      · subst same
        simpa [announced] using h
      · simp [announced, same]
    | closes =>
      by_cases same : before = .closed
      · subst same
        simpa [announced] using h
      · simp [announced, same]
  · simpa [here, Ne.symm here] using h

theorem books_move {w : World} {t : Tid} {p : Provider} {c : CircuitBreaker}
    (moved : Moved (w.circuit p).state c.state) (h : Books w none) :
    Books (w.moveCircuit t p c) (announced p (w.circuit p).state c.state) := by
  obtain ⟨circuits, new, -, hw⟩ := Effect.moveCircuit_touches t w p c
  have store : (w.moveCircuit t p c).store = w.store := by rw [hw]; rfl
  have nextUuid : (w.moveCircuit t p c).shared.nextUuid = w.shared.nextUuid := by rw [hw]
  constructor
  · intro id hid
    rw [nextUuid]
    exact h.known (store ▸ hid)
  · intro q
    obtain ⟨told, tells, all⟩ := h.told q
    have complete : transitions q w.log = told := by simpa [about] using all
    exact ⟨told, store ▸ tells, by rw [transitions_moveCircuit, complete]⟩
  · exact fun q => reproduced_move moved (h.reproduced q)

/-- Events whose identifiers were drawn for them go to the end of the outbox. -/
structure Appended (events : List EventEnvelope) (w w' : World) : Prop where
  events : w'.store.events = w.store.events ++ events
  nextUuid : w'.shared.nextUuid = w.shared.nextUuid
  circuits : w'.process.circuits = w.process.circuits
  log : w'.log = w.log

theorem Appended.books {w w' : World} {g : Stage} {events : List EventEnvelope}
    (h : Appended events w w') (appends : Appends g.recording events)
    (fresh : ∀ id ∈ ids events, id < w.shared.nextUuid) (hw : Books w g.recording) :
    Books w' none := by
  have circuit (p : Provider) : w'.circuit p = w.circuit p := congrFun h.circuits p
  constructor
  · intro id hid
    rw [h.events, ids_append] at hid
    rw [h.nextUuid]
    obtain hid | hid := List.mem_append.mp hid
    · exact hw.known hid
    · exact fresh id hid
  · intro p
    obtain ⟨told, tells, all⟩ := hw.told p
    refine ⟨told ++ about p g.recording, ?_, by rw [h.log, all]; simp [about]⟩
    rw [h.events, circuitEvents_append]
    apply List.rel_append tells
    cases recording : g.recording with
    | none =>
      rw [recording] at appends
      rw [circuitEvents_foreign appends]
      exact .nil
    | some m =>
      rw [recording] at appends
      obtain ⟨event, rfl, told⟩ := appends
      exact told.told
  · intro p
    unfold Reproduced
    rw [circuit, h.log]
    exact hw.reproduced p

section Step

variable {cfg : Config} {profile : Profile} {s : ServiceState} {l : ServiceLabel} {t : Tid}
  {c : Call} {g g' : Stage} {e : Effect} {r : e.Reply} {w : World} {b : Bool} {v : Option Tid}

theorem current_goes {st : Statuses} (goes : Goes discipline t c g b v) :
    current v (Function.update st t (some ⟨c, g, b⟩)) = g.recording := by
  cases goes with
  | on => simp [current]
  | ended post => exact (show g.recording = none from post).symm

variable (inv : Inv s.world s.running (discipline.statuses s))
  (ht : discipline.statuses s t = some ⟨c, g, false⟩)

include inv

theorem others_quiet {a : Answer e.Reply World} (h : Delivered (system cfg profile) s l t e a)
    {u : Tid} {x : Status Call Stage} (hne : u ≠ t) (hu : discipline.statuses s u = some x) :
    x.phase.recording = none := by
  by_contra recording
  exact hne (h.running (inv.running hu recording))

include ht

theorem current_delivered {a : Answer e.Reply World}
    (h : Delivered (system cfg profile) s l t e a) :
    current s.running (discipline.statuses s) = g.recording := by
  obtain ⟨i, -, running, -⟩ | ⟨i, -, idle, -⟩ := h.answer
  · rw [running]
    simp [current, ht]
  · rw [idle]
    by_contra recording
    have running := inv.running ht (Ne.symm recording)
    rw [idle] at running
    cases running

/-- What has to be shown of a step that takes a task on to another stage. -/
theorem inv_moves (h : Delivered (system cfg profile) s l t e (.reply r w))
    (goes : Goes discipline t c g' b v) (books : Books w g'.recording)
    (self : ∀ id ∈ g'.drawn, id < w.shared.nextUuid ∧ id ∉ ids w.store.events)
    (others : ∀ u x, u ≠ t → discipline.statuses s u = some x →
      ∀ id ∈ x.phase.drawn, id < w.shared.nextUuid ∧ id ∉ ids w.store.events)
    (drawn : ∀ id ∈ g'.drawn, id ∈ g.drawn ∨ s.world.shared.nextUuid ≤ id) :
    Inv w v (Function.update (discipline.statuses s) t (some ⟨c, g', b⟩)) := by
  have apart (u : Tid) (x : Status Call Stage) (hne : u ≠ t)
      (hu : discipline.statuses s u = some x) (id : Uuid) (hid : id ∈ g'.drawn) :
      id ∉ x.phase.drawn := by
    intro hx
    obtain old | new := drawn id hid
    · exact hne (inv.apart hu ht hx old)
    · exact absurd (inv.drawn hu hx).1 (not_lt.mpr new)
  constructor
  · rw [current_goes goes]
    exact books
  · intro u x hu recording
    obtain ⟨rfl, rfl⟩ | ⟨hne, hu⟩ := update_cases hu
    · cases goes with
      | on => rfl
      | ended post => exact absurd post recording
    · exact absurd (others_quiet inv h hne hu) recording
  · intro u x id hu hid
    obtain ⟨-, rfl⟩ | ⟨hne, hu⟩ := update_cases hu
    · exact self id hid
    · exact others u x hne hu id hid
  · intro u u' x x' id hu hu' hid hid'
    obtain ⟨rfl, rfl⟩ | ⟨hne, old⟩ := update_cases hu
    · obtain ⟨rfl, rfl⟩ | ⟨hne', old'⟩ := update_cases hu'
      · rfl
      · exact absurd hid' (apart u' x' hne' old' id hid)
    · obtain ⟨rfl, rfl⟩ | ⟨hne', old'⟩ := update_cases hu'
      · exact absurd hid (apart u x hne old id hid')
      · exact inv.apart old old' hid hid'

/-- A step after which the outbox knows what it knew and no identifier is given out. -/
theorem inv_stays (h : Delivered (system cfg profile) s l t e (.reply r w))
    (goes : Goes discipline t c g' b v) (books : Books w g'.recording)
    (events : w.store.events = s.world.store.events)
    (nextUuid : w.shared.nextUuid = s.world.shared.nextUuid) (drawn : g'.drawn = g.drawn) :
    Inv w v (Function.update (discipline.statuses s) t (some ⟨c, g', b⟩)) := by
  apply inv_moves inv ht h goes books
  · intro id hid
    rw [events, nextUuid]
    exact inv.drawn ht (drawn ▸ hid)
  · intro u x _ hu id hid
    rw [events, nextUuid]
    exact inv.drawn hu hid
  · exact fun id hid => .inl (drawn ▸ hid)

theorem inv_same (h : Delivered (system cfg profile) s l t e (.reply r w))
    (goes : Goes discipline t c (next g e r) b v) (same : Same s.world w)
    (draws : draws g e r = g.drawn) (record : record g.recording e r = g.recording) :
    Inv w v (Function.update (discipline.statuses s) t (some ⟨c, next g e r, b⟩)) := by
  apply inv_stays inv ht h goes ?_ same.events same.nextUuid draws
  show Books w (CircuitEvents.record g.recording e r)
  rw [record, ← current_delivered inv ht h]
  exact same.books inv.books

theorem inv_circuit {a : CircuitEffect} {r : (Effect.circuit a).Reply} (hok : g.recording = none)
    (h : Delivered (system cfg profile) s l t (.circuit a) (.reply r w))
    (goes : Goes discipline t c (next g (.circuit a) r) b v) :
    Inv w v (Function.update (discipline.statuses s) t (some ⟨c, next g (.circuit a) r, b⟩)) := by
  have books : Books s.world none := by
    rw [← hok, ← current_delivered inv ht h]
    exact inv.books
  have store : w.store = s.world.store := (reply_touches h).store fun _ => Effect.noConfusion
  apply inv_stays inv ht h goes ?_ (congrArg _ store)
    ((reply_touches h).nextUuid Effect.noConfusion) rfl
  cases a with
  | allowRequest p =>
    obtain ⟨now, -, -, rfl, rfl⟩ := allowRequest_reply h
    have moved := books_move (t := t) (moved_allowRequest (s.world.circuit p) now) books
    split
    · exact ⟨moved.known, moved.told, moved.reproduced⟩
    · exact moved
  | recordSuccess p =>
    obtain ⟨-, rfl, rfl⟩ := recordSuccess_reply h
    exact books_move .closes books
  | recordFailure p =>
    obtain ⟨now, -, -, rfl, rfl⟩ := recordFailure_reply h
    exact books_move (moved_recordFailure _ now) books

theorem inv_uuid4 {id : Uuid}
    (h : Delivered (system cfg profile) s l t (.host .uuid4) (.reply id w))
    (goes : Goes discipline t c (next g (.host .uuid4) id) b v) :
    Inv w v (Function.update (discipline.statuses s) t
      (some ⟨c, next g (.host .uuid4) id, b⟩)) := by
  have books := inv.books
  rw [current_delivered inv ht h] at books
  obtain ⟨rfl, rfl⟩ := uuid4_reply h
  have later {x : Uuid} {u : Tid} {status : Status Call Stage}
      (hu : discipline.statuses s u = some status) (hx : x ∈ status.phase.drawn) :
      x < s.world.shared.nextUuid + 1 ∧ x ∉ ids s.world.store.events :=
    ⟨Nat.lt_succ_of_lt (inv.drawn hu hx).1, (inv.drawn hu hx).2⟩
  apply inv_moves inv ht h goes
  · exact ⟨fun hid => Nat.lt_succ_of_lt (books.known hid), books.told, books.reproduced⟩
  · intro id hid
    obtain rfl | hid := List.mem_cons.mp hid
    · exact ⟨Nat.lt_succ_self _, fun known => Nat.lt_irrefl _ (books.known known)⟩
    · exact later ht hid
  · exact fun u x _ hu id hid => later hu hid
  · intro id hid
    obtain rfl | hid := List.mem_cons.mp hid
    · exact .inr (Nat.le_refl _)
    · exact .inl hid

theorem inv_appended {events : List EventEnvelope}
    (h : Delivered (system cfg profile) s l t e (.reply r w))
    (goes : Goes discipline t c (next g e r) b v) (appended : Appended events s.world w)
    (owned : g.owns events) (appends : Appends g.recording events)
    (draws : draws g e r = g.use events) (record : record g.recording e r = none) :
    Inv w v (Function.update (discipline.statuses s) t (some ⟨c, next g e r, b⟩)) := by
  have books := inv.books
  rw [current_delivered inv ht h] at books
  have left {u : Tid} {x : Status Call Stage} {id : Uuid}
      (hu : discipline.statuses s u = some x) (hid : id ∈ x.phase.drawn) (new : id ∉ ids events) :
      id < w.shared.nextUuid ∧ id ∉ ids w.store.events := by
    rw [appended.nextUuid, appended.events, ids_append, List.mem_append, not_or]
    exact ⟨(inv.drawn hu hid).1, (inv.drawn hu hid).2, new⟩
  apply inv_moves inv ht h goes
  · show Books w (CircuitEvents.record g.recording e r)
    rw [record]
    exact appended.books appends (fun id hid => (inv.drawn ht (owned.2 id hid)).1) books
  · intro id hid
    have used : id ∈ g.drawn ∧ id ∉ ids events := by
      simpa [Stage.use] using (show id ∈ g.use events from draws ▸ hid)
    exact left ht used.1 used.2
  · intro u x hne hu id hid
    exact left hu hid fun used => hne (inv.apart hu ht hid (owned.2 id used))
  · intro id hid
    have used : id ∈ g.use events := draws ▸ hid
    exact .inl (List.mem_filter.mp used).1

theorem inv_store (memory : profile.storage = .memory) {a : StoreEffect}
    {r : (Effect.store a).Reply} (hok : ok g (.store a))
    (h : Delivered (system cfg profile) s l t (.store a) (.reply r w))
    (goes : Goes discipline t c (next g (.store a) r) b v) :
    Inv w v (Function.update (discipline.statuses s) t (some ⟨c, next g (.store a) r, b⟩)) := by
  obtain ⟨-, rfl⟩ := store_reply memory h
  have fresh {events : List EventEnvelope} (owned : g.owns events) :
      ∀ id ∈ ids events, id ∉ ids s.world.store.events :=
    fun id hid => (inv.drawn ht (owned.2 id hid)).2
  cases a with
  | append events =>
    obtain ⟨owned, appends⟩ := hok
    exact inv_appended inv ht h goes ⟨append_fresh _ _ owned.1 (fresh owned), rfl, rfl, rfl⟩ owned
      appends rfl rfl
  | saveWithEvents p events =>
    obtain ⟨owned, calm, appends⟩ := hok
    exact inv_appended inv ht h goes ⟨append_fresh _ _ owned.1 (fresh owned), rfl, rfl, rfl⟩ owned
      (calm ▸ appends) rfl calm
  | _ => exact inv_same inv ht h goes ⟨rfl, rfl, rfl, fun _ => rfl⟩ rfl rfl

theorem inv_reply (memory : profile.storage = .memory) (hok : ok g e)
    (h : Delivered (system cfg profile) s l t e (.reply r w))
    (goes : Goes discipline t c (next g e r) b v) :
    Inv w v (Function.update (discipline.statuses s) t (some ⟨c, next g e r, b⟩)) := by
  cases e with
  | host e =>
    cases e with
    | uuid4 => exact inv_uuid4 inv ht h goes
    | _ => exact inv_same inv ht h goes (quiet_same (reply_touches h) trivial) rfl rfl
  | circuit e => exact inv_circuit inv ht hok h goes
  | store e => exact inv_store inv ht memory hok h goes
  | _ => exact inv_same inv ht h goes (quiet_same (reply_touches h) trivial) rfl rfl

theorem reply_may (h : Delivered (system cfg profile) s l t e (.reply r w)) : may g e r := by
  cases e with
  | host e =>
    cases e with
    | uuid4 =>
      obtain ⟨rfl, -⟩ := uuid4_reply h
      exact fun hid => Nat.lt_irrefl _ (inv.drawn ht hid).1
    | _ => trivial
  | _ => trivial

theorem inv_wait (memory : profile.storage = .memory) (hok : ok g e)
    (h : Delivered (system cfg profile) s l t e (.wait w)) :
    Inv w none (discipline.statuses s) := by
  have calm : g.recording = none ∧ Same s.world w := by
    cases e with
    | host e =>
      cases e with
      | now => exact absurd h now_never_waits
      | uuid4 => exact absurd h uuid4_never_waits
      | _ => exact ⟨hok, quiet_same (wait_touches h) trivial⟩
    | circuit e => exact absurd h circuit_never_waits
    | store e => exact absurd h (store_never_waits memory)
    | _ => exact ⟨hok, quiet_same (wait_touches h) trivial⟩
  obtain ⟨calm, same⟩ := calm
  have books := inv.books
  rw [current_delivered inv ht h, calm] at books
  constructor
  · exact same.books books
  · intro u x hu recording
    by_cases hut : u = t
    · subst hut
      obtain rfl := Option.some.inj (ht.symm.trans hu)
      exact absurd calm recording
    · exact absurd (others_quiet inv h hut hu) recording
  · intro u x id hu hid
    rw [same.nextUuid, same.events]
    exact inv.drawn hu hid
  · exact inv.apart

end Step

theorem inv_call {w : World} {st : Statuses} {t : Tid} {c : Call} {b : Bool} {v : Option Tid}
    (inv : Inv w none st) (goes : Goes discipline t c (discipline.first c) b v) :
    Inv w v (Function.update st t (some ⟨c, discipline.first c, b⟩)) := by
  constructor
  · rw [current_goes goes]
    exact inv.books
  · intro u x hu recording
    obtain ⟨-, rfl⟩ | ⟨-, hu⟩ := update_cases hu
    · exact absurd rfl recording
    · cases inv.running hu recording
  · intro u x id hu hid
    obtain ⟨-, rfl⟩ | ⟨-, hu⟩ := update_cases hu
    · cases hid
    · exact inv.drawn hu hid
  · intro u u' x x' id hu hu' hid hid'
    obtain ⟨-, rfl⟩ | ⟨-, hu⟩ := update_cases hu
    · cases hid
    · obtain ⟨-, rfl⟩ | ⟨-, hu'⟩ := update_cases hu'
      · cases hid'
      · exact inv.apart hu hu' hid hid'

theorem inv_outside {a : Outside} {w w' : World} {st : Statuses} (inv : Inv w none st)
    (h : a.apply w = some w') : Inv w' none st := by
  have same := outside_same h
  constructor
  · exact same.books inv.books
  · exact inv.running
  · intro u x id hu hid
    rw [same.nextUuid, same.events]
    exact inv.drawn hu hid
  · exact inv.apart

theorem inv_initial {circuit : CircuitBreaker} (fresh : circuit.Fresh)
    (concurrency : List (Provider × ℕ)) :
    Inv (.initial circuit concurrency) none fun _ => none where
  books := ⟨nofun, fun _ => ⟨[], .nil, rfl⟩, fun p => by
    have circuit : (World.initial circuit concurrency).circuit p = circuit :=
      congrFun (Process.initial_eq Process.circuits (fun _ _ _ => rfl) circuit concurrency) p
    unfold Reproduced
    rw [circuit]
    exact iff_of_true fresh.1 nofun⟩
  running := nofun
  drawn := nofun
  apart := nofun

theorem maintains {cfg : Config} {profile : Profile} (memory : profile.storage = .memory)
    (outbox : cfg.outbox ≠ .absent) :
    Maintains (system cfg profile) (fun _ _ => True) discipline Inv where
  follows := run_follows outbox
  call := fun _ inv _ goes => inv_call inv goes
  reply := fun _ inv ht hok h =>
    ⟨reply_may inv ht h, fun _ _ goes => inv_reply inv ht memory hok h goes⟩
  wait := fun _ inv ht hok h => inv_wait inv ht memory hok h
  outside := fun _ inv h => inv_outside inv h

theorem phase_recording (T : ServiceTask) : (discipline.phase T).recording = recording T.trace := by
  have follows (trace : List ((e : Effect) × e.Reply)) (g : Stage) :
      (trace.foldl (fun g ev => next g ev.1 ev.2) g).recording =
        trace.foldl (fun m ev => record m ev.1 ev.2) g.recording := by
    induction trace generalizing g with
    | nil => rfl
    | cons ev trace ih => exact ih _
  exact follows T.trace _

theorem transitions_current {p : Provider} {log : List Happening} {m : Transition}
    (h : m ∈ transitions p log) : m.current ≠ .halfOpen := by
  induction log with
  | nil => cases h
  | cons x log ih =>
    cases x with
    | transition t q previous current =>
      rw [transitions, List.mem_append] at h
      obtain h | h := h
      · exact ih h
      · unfold announced at h
        split at h
        · split at h
          · rename_i told
            obtain rfl := List.mem_singleton.mp h
            exact told.2
          · cases h
        · cases h
    | _ => exact ih h

theorem Tells.closed {m : Transition} {event : EventEnvelope} (h : Tells m event)
    (settled : m.current ≠ .halfOpen) :
    m.current = .closed ↔ event.eventType = .providerCircuitClosed := by
  rw [h.eventType_eq]
  cases current : m.current with
  | halfOpen => exact absurd current settled
  | _ => simp

theorem reproduced_events {w : World} {p : Provider} (h : Reproduced w p)
    (told : List.Forall₂ Tells (transitions p w.log) (circuitEvents p w.store.events)) :
    (w.circuit p).state = .closed ↔ ∀ event,
      (circuitEvents p w.store.events).getLast? = some event →
        event.eventType = .providerCircuitClosed := by
  unfold Reproduced at h
  rw [h, List.getLast?_eq_head?_reverse, List.getLast?_eq_head?_reverse]
  have settled (m : Transition) (hm : m ∈ (transitions p w.log).reverse) : m.current ≠ .halfOpen :=
    transitions_current (List.mem_reverse.mp hm)
  have backwards := List.rel_reverse told
  generalize (transitions p w.log).reverse = ms at *
  generalize (circuitEvents p w.store.events).reverse = events at *
  cases backwards with
  | nil => simp
  | cons tells _ => simpa using tells.closed (settled _ (List.mem_cons_self ..))

/-- While no call is recording a transition, the outbox tells of the transitions of every circuit,
and the last event about a circuit tells whether it is closed. -/
theorem circuit_events {cfg : Config} {profile : Profile} (memory : profile.storage = .memory)
    (outbox : cfg.outbox ≠ .absent) {circuit : CircuitBreaker} (fresh : circuit.Fresh)
    (concurrency : List (Provider × ℕ)) {s : ServiceState}
    (h : Reaches (system cfg profile) (fun _ _ => True) (.empty (.initial circuit concurrency)) s)
    (idle : ∀ t T, s.tasks t = some T → recording T.trace = none) (p : Provider) :
    ((s.world.circuit p).state = .closed ↔ ∀ event,
      (circuitEvents p s.world.store.events).getLast? = some event →
        event.eventType = .providerCircuitClosed) ∧
    List.Forall₂ Tells (transitions p s.world.log) (circuitEvents p s.world.store.events) := by
  obtain ⟨-, inv⟩ := (maintains memory outbox).reaches_empty (inv_initial fresh concurrency) h
  have none : current s.running (discipline.statuses s) = none := by
    unfold current
    cases hu : s.running.bind (discipline.statuses s) with
    | none => rfl
    | some u =>
      obtain ⟨t, -, hu⟩ := Option.bind_eq_some_iff.mp hu
      obtain ⟨T, task, rfl⟩ := discipline.statuses_some hu
      exact (phase_recording T).trans (idle t T task)
  have books := inv.books
  rw [none] at books
  obtain ⟨told, tells, all⟩ := books.told p
  obtain rfl : transitions p s.world.log = told := by simpa [about] using all
  exact ⟨reproduced_events (books.reproduced p) tells, tells⟩

/-- The probe after the failure closes the circuit, and the outbox is told. -/
def recoveredRun : List ServiceLabel :=
  Recovery.probeRun ++ returns 1 "reference" ++ [.enter 1 .go] ++ event 1 31 ++ [.enter 1 .go]

theorem circuit_events_recovered : ∃ s : ServiceState,
    (s.world.circuit "stripe").state = .closed ∧
    (circuitEvents "stripe" s.world.store.events).map EventEnvelope.payload =
      [.circuit "stripe" .closed .opened, .circuit "stripe" .halfOpen .closed] ∧
    List.Forall₂ Tells (transitions "stripe" s.world.log)
      (circuitEvents "stripe" s.world.store.events) := by
  have h : ∃ s ∈ run (system (service ["stripe"] 1) {}) recoveredRun
      (.empty (.initial fragile [])),
      (∀ t ∈ called recoveredRun, ∀ T ∈ s.tasks t, recording T.trace = none) ∧
      (s.world.circuit "stripe").state = .closed ∧
      (circuitEvents "stripe" s.world.store.events).map EventEnvelope.payload =
        [.circuit "stripe" .closed .opened, .circuit "stripe" .halfOpen .closed] := by
    decide +kernel
  obtain ⟨s, moved, idle, closed, payloads⟩ := h
  have outbox : (service ["stripe"] 1).outbox ≠ .absent := by decide
  have events := circuit_events rfl outbox ⟨rfl, rfl, rfl, rfl⟩ []
    (run_reaches _ (throughout_of_forall _ (fun _ _ _ => trivial) _) moved)
    (fun t T task => idle t (run_called _ moved task) T task) "stripe"
  exact ⟨s, closed, payloads, events.2⟩

end PySwitch.CircuitEvents
