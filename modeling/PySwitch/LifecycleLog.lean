import PySwitch.Lifecycle
import PySwitch.RefundLedger

namespace PySwitch.Lifecycle

open Async Service OutboxLog Scenario

/-- As many events as a payment has refunds follow the first three, and the last one has its
status. -/
structure Counted (p : Payment) (events : List EventEnvelope) : Prop where
  length : events.length = p.refunds.length + 3
  last : ∃ event, events.getLast? = some event ∧ event.payload = .payment p.id p.status

theorem Opening.counted {p : Payment} {events : List EventEnvelope} (h : Opening p events)
    (refunds : p.refunds = []) : Counted p events := by
  obtain ⟨created, processing, final, rfl, -, -, outcome⟩ := h
  refine ⟨by rw [refunds]; rfl, final, rfl, ?_⟩
  obtain ⟨status, tells⟩ | ⟨status, tells⟩ := outcome
  · rw [status]
    exact tells.payload_eq
  · rw [status]
    exact tells.payload_eq

theorem Counted.refunded {q : Payment} {events : List EventEnvelope} (h : Counted q events)
    {refund : Refund} {event : EventEnvelope}
    (tells : Tells (applyRefund q refund).id .paymentRefunded (applyRefund q refund).status event) :
    Counted (applyRefund q refund) (events ++ [event]) := by
  refine ⟨?_, event, by simp, tells.payload_eq⟩
  have length := h.length
  simp [applyRefund, length]

/-- In one process a refund is recorded in one go, so the outbox never lags behind the store. -/
structure Recorded (w : World) (running : Option Tid) (st : Statuses) : Prop where
  pending : ∀ {t u}, st t = some u → u.phase.mode.applies → running = some t
  current : ∀ {t u q}, st t = some u → u.phase.mode = .applying q →
    w.store.payments q.id = some q
  counted : ∀ {id p}, w.store.payments id = some p → Counted p (eventsOf id w.store.events)

section Step

variable {cfg : Config} {profile : Profile} {s : ServiceState} {l : ServiceLabel} {t : Tid}
  {c : Call} {g g' : Stage} {e : Effect} {r : e.Reply} {w : World} {b : Bool} {v : Option Tid}
  (rec : Recorded s.world s.running ((discipline profile).statuses s))
  (h : Delivered (system cfg profile) s l t e (.reply r w))

include rec h

theorem recorded_moves (hg : Goes (discipline profile) t c g' b v)
    (self : ∀ q, g'.mode = .applying q → w.store.payments q.id = some q)
    (counted : ∀ {id p}, w.store.payments id = some p → Counted p (eventsOf id w.store.events)) :
    Recorded w v (Function.update ((discipline profile).statuses s) t (some ⟨c, g', b⟩)) := by
  have others (u : Tid) (x : Status Call Stage) (hne : u ≠ t)
      (hu : (discipline profile).statuses s u = some x) : ¬ x.phase.mode.applies :=
    fun hm => hne (h.running (rec.pending hu hm))
  constructor
  · intro u x hu hm
    obtain ⟨rfl, rfl⟩ | ⟨hne, hu⟩ := update_cases hu
    · cases hg with
      | on => rfl
      | ended post => exact absurd hm post
    · exact absurd hm (others u x hne hu)
  · intro u x q hu hm
    obtain ⟨rfl, rfl⟩ | ⟨hne, hu⟩ := update_cases hu
    · exact self q hm
    · exact absurd (hm ▸ trivial) (others u x hne hu)
  · exact counted

theorem recorded_same (ht : (discipline profile).statuses s t = some ⟨c, g, false⟩)
    (hg : Goes (discipline profile) t c g' b v)
    (payments : w.store.payments = s.world.store.payments)
    (events : ∀ id, eventsOf id w.store.events = eventsOf id s.world.store.events)
    (mode : ∀ q, g'.mode = .applying q → g.mode = .applying q) :
    Recorded w v (Function.update ((discipline profile).statuses s) t (some ⟨c, g', b⟩)) := by
  apply recorded_moves rec h hg
  · intro q hm
    rw [payments]
    exact rec.current ht (mode q hm)
  · intro id p hp
    rw [payments] at hp
    rw [events]
    exact rec.counted hp

variable (ht : (discipline profile).statuses s t = some ⟨c, g, false⟩)
  (inv : Inv s.world s.running ((discipline profile).statuses s))

include ht

theorem recorded_quiet (hg : Goes (discipline profile) t c g b v) (he : quiet e) :
    Recorded w v (Function.update ((discipline profile).statuses s) t (some ⟨c, g, b⟩)) := by
  have same := quiet_same (reply_touches h) he
  apply recorded_same rec h ht hg
  · rw [same.store]
  · exact fun id => by rw [same.store]
  · exact fun _ hm => hm

include inv

omit h in
theorem recorded_save {p : Payment} {events : List EventEnvelope} {r : Except Exn Unit}
    (memory : profile.storage = .memory)
    (h : Delivered (system cfg profile) s l t (.store (.saveWithEvents p events)) (.reply r w))
    (hok : ok profile g (.store (.saveWithEvents p events)))
    (hg : Goes (discipline profile) t c { g.use events with mode := .rest } b v) :
    Recorded w v (Function.update ((discipline profile).statuses s) t
      (some ⟨c, { g.use events with mode := .rest }, b⟩)) := by
  obtain ⟨owned, saves⟩ := hok
  obtain ⟨-, rfl⟩ := store_reply memory h
  have good := inv.good ht
  have log : (s.world.store.saveWithEvents p events).events = s.world.store.events ++ events :=
    append_fresh _ _ owned.1 (good.fresh owned)
  have own : Counted p (eventsOf p.id s.world.store.events ++ events) := by
    obtain ⟨drawn, m⟩ := g
    cases m with
    | draft id =>
      obtain ⟨rfl, refunds, opening⟩ := saves
      rw [inv.books.silent (good.draft rfl).2, List.nil_append]
      exact opening.counted refunds
    | applying q =>
      obtain ⟨refund, event, rfl, rfl, tells⟩ := saves
      exact (rec.counted (rec.current ht rfl)).refunded tells
    | _ => exact saves.elim
  apply recorded_moves rec h hg
  · exact nofun
  · intro id q hq
    have hq : Function.update s.world.store.payments p.id (some p) id = some q := hq
    show Counted q (eventsOf id (s.world.store.saveWithEvents p events).events)
    rw [log, eventsOf_append]
    obtain ⟨rfl, rfl⟩ | ⟨hne, hq⟩ := update_cases hq
    · rw [saves.about.eventsOf_self]
      exact own
    · rw [saves.about.eventsOf_ne hne, List.append_nil]
      exact rec.counted hq

theorem recorded_reply (memory : profile.storage = .memory) (hok : ok profile g e)
    (hg : Goes (discipline profile) t c (next g e r) b v) :
    Recorded w v (Function.update ((discipline profile).statuses s) t
      (some ⟨c, next g e r, b⟩)) := by
  cases e with
  | host e =>
    cases e with
    | uuid4 =>
      obtain ⟨rfl, rfl⟩ := uuid4_reply h
      apply recorded_same rec h ht hg rfl fun _ => rfl
      intro q hm
      obtain ⟨drawn, m⟩ := g
      cases m with
      | ordered => cases hm
      | _ => exact hm
    | _ => exact recorded_quiet rec h ht hg trivial
  | store e =>
    obtain ⟨hr, hw⟩ := store_reply memory h
    cases e with
    | get paymentId =>
      subst hw
      apply recorded_same rec h ht hg rfl fun _ => rfl
      intro q hm
      obtain ⟨drawn, m⟩ := g
      obtain x | (_ | p) := r
      · exact hm
      · exact hm
      · cases m with
        | rest => cases hm
        | _ => exact hm
    | getByIdempotency key =>
      subst hw
      exact recorded_same rec h ht hg rfl (fun _ => rfl) fun _ hm => hm
    | save p => exact hok.elim
    | saveWithEvents p events => exact recorded_save rec ht inv memory h hok hg
    | append events =>
      obtain ⟨owned, alien, -⟩ := hok
      subst hw
      apply recorded_same rec h ht hg rfl
      · intro id
        have log : (s.world.store.append events).events = s.world.store.events ++ events :=
          append_fresh _ _ owned.1 ((inv.good ht).fresh owned)
        have none : eventsOf id events = [] := eventsOf_none fun e he => by simp [alien e he]
        show eventsOf id (s.world.store.append events).events = _
        rw [log, eventsOf_append, none, List.append_nil]
      · exact fun _ hm => hm
    | reread p =>
      subst hw
      obtain ⟨q, hq⟩ := Option.ne_none_iff_exists'.mp ((inv.good ht).found hok)
      have hr : r = q := by
        rw [hr]
        show (s.world.store.payments p.id).getD p = q
        rw [hq, Option.getD_some]
      apply recorded_moves rec h hg
      · intro q' hm
        obtain rfl := Mode.applying.inj hm
        rw [hr, (inv.books.stored hq).1]
        exact hq
      · exact rec.counted
  | _ => exact recorded_quiet rec h ht hg trivial

end Step

theorem recorded_wait {cfg : Config} {profile : Profile} {s : ServiceState} {l : ServiceLabel}
    {t : Tid} {c : Call} {g : Stage} {e : Effect} {w : World}
    (memory : profile.storage = .memory)
    (rec : Recorded s.world s.running ((discipline profile).statuses s))
    (ht : (discipline profile).statuses s t = some ⟨c, g, false⟩) (hok : ok profile g e)
    (h : Delivered (system cfg profile) s l t e (.wait w)) :
    Recorded w none ((discipline profile).statuses s) := by
  have calm : ¬ g.mode.applies := by
    intro hm
    cases e with
    | host e =>
      cases e with
      | now => exact now_never_waits h
      | uuid4 => exact uuid4_never_waits h
      | _ => exact hok hm
    | store e => exact store_never_waits memory h
    | coordinator e => exact hok.2 hm
    | _ => exact hok hm
  have store : w.store = s.world.store := by
    cases e with
    | store e => exact absurd h (store_never_waits memory)
    | _ => exact (wait_touches h).store fun _ => Effect.noConfusion
  have idle (u : Tid) (x : Status Call Stage)
      (hu : (discipline profile).statuses s u = some x) : ¬ x.phase.mode.applies := by
    intro hm
    obtain rfl := h.running (rec.pending hu hm)
    obtain rfl := Option.some.inj (ht.symm.trans hu)
    exact calm hm
  constructor
  · exact fun hu hm => absurd hm (idle _ _ hu)
  · exact fun hu hm => absurd (hm ▸ trivial) (idle _ _ hu)
  · rw [store]
    exact rec.counted

theorem recorded_call {w : World} {st : Statuses} {t : Tid} {c : Call}
    {b : Bool} {v : Option Tid} (rec : Recorded w none st) :
    Recorded w v (Function.update st t (some ⟨c, first c, b⟩)) := by
  have calm : ¬ (first c).mode.applies := by cases c <;> exact id
  constructor
  · intro u x hu hm
    obtain ⟨-, rfl⟩ | ⟨-, hu⟩ := update_cases hu
    · exact absurd hm calm
    · cases rec.pending hu hm
  · intro u x q hu hm
    obtain ⟨-, rfl⟩ | ⟨-, hu⟩ := update_cases hu
    · exact absurd (hm ▸ trivial) calm
    · exact rec.current hu hm
  · exact rec.counted

theorem extends_recorded {cfg : Config} {profile : Profile} (memory : profile.storage = .memory) :
    Extends (system cfg profile) (fun _ _ => True) (discipline profile) Inv Recorded where
  call := fun _ rec _ _ => recorded_call rec
  reply := fun _ inv rec ht hok h _ _ hg _ => recorded_reply rec h ht inv memory hok hg
  wait := fun _ _ rec ht hok h => recorded_wait memory rec ht hok h
  outside := fun {s a w} _ rec h => by
    have store : w.store = s.world.store := (outside_frame h).store
    refine ⟨rec.pending, fun hu hm => ?_, ?_⟩
    · rw [store]
      exact rec.current hu hm
    · rw [store]
      exact rec.counted

/-- What the outbox says of a stored payment. -/
structure Logged (id : Uuid) (p : Payment) (events : List EventEnvelope) : Prop where
  lifecycle : ∃ created processing final refunded,
    events = created :: processing :: final :: refunded ∧
    Tells id .paymentCreated .processing created ∧
    Tells id .paymentProcessing .processing processing ∧
    (Tells id .paymentSucceeded .succeeded final ∨ Tells id .paymentFailed .failed final) ∧
    (∀ event ∈ refunded, ∃ status, Tells id .paymentRefunded status event) ∧
    refunded.length = p.refunds.length
  last : ∃ event, events.getLast? = some event ∧ event.payload = .payment id p.status

/-- Whatever the interleaving, the outbox holds exactly the events of the stored payments. -/
theorem outbox_log {cfg : Config} {profile : Profile} (memory : profile.storage = .memory)
    (reliable : Ledger.Reliable profile cfg.coordinator) (outbox : cfg.outbox = .store)
    (circuit : CircuitBreaker) (concurrency : List (Provider × ℕ)) {s : ServiceState}
    (h : Reaches (system cfg profile) (fun _ _ => True) (.empty (.initial circuit concurrency)) s) :
    ∀ id, match s.world.store.payments id with
      | some p => Logged id p (eventsOf id s.world.store.events)
      | none => eventsOf id s.world.store.events = [] := by
  intro id
  have M := (extends_recorded memory).maintains (maintains reliable outbox)
    fun _ _ _ external => by rw [memory] at external; cases external
  obtain ⟨-, inv, rec⟩ := M.reaches_empty
    ⟨inv_initial circuit concurrency, nofun, nofun, nofun⟩ h
  cases stored : s.world.store.payments id with
  | none => exact inv.books.silent stored
  | some p =>
    have counted := rec.counted stored
    have complete := inv.books.complete (stored ▸ Option.some_ne_none p)
    have last := counted.last
    rw [(inv.books.stored stored).1] at last
    refine ⟨?_, last⟩
    obtain ⟨created, processing, final, refunded, split, hc, hp, hf, hr⟩ := complete
    have length := counted.length
    rw [split] at length
    exact ⟨created, processing, final, refunded, split, hc, hp, hf, hr, by simpa using length⟩

theorem outbox_log_refunded : ∃ (s : ServiceState) (p : Payment),
    s.world.store.payments 0 = some p ∧ p.refunds.length = 1 ∧
      Logged 0 p (eventsOf 0 s.world.store.events) := by
  have h : ∃ s ∈ run (system (service ["stripe"] 1) {}) Ledger.refundRun
      (.empty (.initial fragile [])),
      ∃ p ∈ s.world.store.payments 0, p.refunds.length = 1 := by
    decide +kernel
  obtain ⟨s, moved, p, stored, refunds⟩ := h
  have logged := outbox_log rfl (Ledger.reliable_direct rfl) rfl fragile []
    (run_reaches _ (throughout_of_forall _ (fun _ _ _ => trivial) _) moved) 0
  rw [stored] at logged
  exact ⟨s, p, stored, refunds, logged⟩

end PySwitch.Lifecycle
