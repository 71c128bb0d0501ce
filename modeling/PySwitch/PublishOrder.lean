import PySwitch.Lifecycle
import PySwitch.SqlOutbox

namespace PySwitch.PublishOrder

open Async Program OutboxLog SqlOutbox Scenario
open SortedBy (Increasing)

/-- A service works on its database, and a dispatcher makes a round now and then. -/
inductive Dispatched (cfg : Config) (profile : Profile) (w : World) :
    ServiceState → List Uuid → List EventEnvelope → Prop
  | start : Dispatched cfg profile w (.empty w) [] []
  | service {s s' : ServiceState} {l : ServiceLabel} {published : List Uuid}
      {accepted : List EventEnvelope} (before : Dispatched cfg profile w s published accepted)
      (meets : Lifecycle.Ordinary profile s l) (moved : step (system cfg profile) l s = some s') :
    Dispatched cfg profile w s' published accepted
  | round {s : ServiceState} {published : List Uuid} {accepted ordered : List EventEnvelope}
      (d : OutboxDispatcher) (limit : ℤ) (before : Dispatched cfg profile w s published accepted)
      (arranged : Arranges (unsent s.world.store.events published) ordered) {o : SqlOutbox}
      (done : ((d.dispatchOnce limit).alone (answer ordered) 0
        ⟨s.world.store.events, published, accepted⟩).2 = o) :
    Dispatched cfg profile w s o.published o.accepted

/-- The events of a payment that were published are the first ones, and it is known which. -/
structure InOrder (id : Uuid) (rows : List EventEnvelope) (published : List Uuid)
    (accepted todo : List EventEnvelope) : Prop where
  split : eventsOf id rows = eventsOf id accepted ++ todo
  done : ∀ event ∈ eventsOf id accepted, event.id ∈ published
  left : ∀ event ∈ todo, event.id ∉ published

theorem eventsOf_prefix {a b : List EventEnvelope} (id : Uuid) (h : a <+: b) :
    eventsOf id a <+: eventsOf id b := by
  obtain ⟨new, rfl⟩ := h
  exact ⟨eventsOf id new, (Lifecycle.eventsOf_append id a new).symm⟩

theorem InOrder.grow {id : Uuid} {rows new : List EventEnvelope} {published : List Uuid}
    {accepted todo : List EventEnvelope} (h : InOrder id rows published accepted todo)
    (fresh : ∀ event ∈ new, event.id ∉ published) :
    InOrder id (rows ++ new) published accepted (todo ++ eventsOf id new) where
  split := by rw [Lifecycle.eventsOf_append, h.split, List.append_assoc]
  done := h.done
  left := fun event he => by
    obtain he | he := List.mem_append.mp he
    · exact h.left event he
    · exact fresh event (List.mem_filter.mp he).1

/-- Of the rows that are unsent, those of the payment are the ones still to do. -/
theorem InOrder.unsent {id : Uuid} {rows : List EventEnvelope} {published : List Uuid}
    {accepted todo : List EventEnvelope} (h : InOrder id rows published accepted todo) :
    eventsOf id (SqlOutbox.unsent rows published) = todo := by
  have commuted : eventsOf id (SqlOutbox.unsent rows published) =
      (eventsOf id rows).filter fun row => row.id ∉ published := by
    simp only [eventsOf, SqlOutbox.unsent, List.filter_filter, Bool.and_comm]
  have gone : (eventsOf id accepted).filter (fun row => row.id ∉ published) = [] := by
    rw [List.filter_eq_nil_iff]
    intro event he
    simpa using h.done event he
  have kept : todo.filter (fun row => row.id ∉ published) = todo := by
    rw [List.filter_eq_self]
    intro event he
    simpa using h.left event he
  rw [commuted, h.split, List.filter_append, gone, kept, List.nil_append]

/-- A batch takes the events of a payment from the front of those still to do. -/
theorem InOrder.deliver {id : Uuid} {rows : List EventEnvelope} {published : List Uuid}
    {accepted todo ordered : List EventEnvelope} (h : InOrder id rows published accepted todo)
    (nodup : (ids rows).Nodup) (increasing : Increasing EventEnvelope.occurredAt (eventsOf id rows))
    (arranged : Arranges (SqlOutbox.unsent rows published) ordered) (n : ℕ) :
    ∃ todo', InOrder id rows (published ++ ids (ordered.take n)) (accepted ++ ordered.take n)
      todo' := by
  have order : eventsOf id ordered = todo := by
    have mine := arranged.filter fun event => event.aggregateId = some id
    rw [← h.unsent]
    apply SortedBy.Arranges.eq mine
    have later : Increasing EventEnvelope.occurredAt todo := by
      rw [h.split] at increasing
      exact increasing.sublist (List.sublist_append_right ..)
    have same : (SqlOutbox.unsent rows published).filter
        (fun event => event.aggregateId = some id) = todo := h.unsent
    rwa [same]
  obtain ⟨rest, hrest⟩ := eventsOf_prefix id (List.take_prefix n ordered)
  rw [order] at hrest
  refine ⟨rest, ?_, ?_, ?_⟩
  · rw [Lifecycle.eventsOf_append, List.append_assoc, hrest, h.split]
  · intro event he
    rw [Lifecycle.eventsOf_append] at he
    obtain he | he := List.mem_append.mp he
    · exact List.mem_append_left _ (h.done event he)
    · exact List.mem_append_right _ (List.mem_map_of_mem (List.mem_filter.mp he).1)
  · intro event he known
    obtain known | known := List.mem_append.mp known
    · exact h.left event (hrest ▸ List.mem_append_right _ he) known
    · obtain ⟨other, hother, same⟩ := List.mem_map.mp known
      have row : event ∈ eventsOf id rows :=
        h.split ▸ List.mem_append_right _ (hrest ▸ List.mem_append_right _ he)
      have otherRow : other ∈ rows :=
        (List.mem_filter.mp (arranged.perm.subset (List.mem_of_mem_take hother))).1
      obtain rfl : other = event :=
        List.inj_on_of_nodup_map nodup otherRow (List.mem_filter.mp row).1 same
      have both : other ∈ eventsOf id (ordered.take n) :=
        List.mem_filter.mpr ⟨hother, (List.mem_filter.mp row).2⟩
      have distinct : (eventsOf id rows).Nodup := (List.Nodup.of_map _ nodup).filter _
      rw [h.split, ← hrest] at distinct
      exact (List.nodup_append.mp (List.nodup_append.mp distinct).2.1).2.2 other both other he rfl

section Runs

variable {cfg : Config} {profile : Profile} {s s' : ServiceState} {l : ServiceLabel} {w : World}
  {published : List Uuid} {accepted : List EventEnvelope}

theorem Dispatched.reaches (h : Dispatched cfg profile w s published accepted) :
    Reaches (system cfg profile) (Lifecycle.Ordinary profile) (.empty w) s := by
  induction h with
  | start => exact .refl
  | service before meets moved ih => exact ih.tail meets moved
  | round d limit before arranged done ih => exact ih

theorem dispatched_of_reaches
    (h : Reaches (system cfg profile) (Lifecycle.Ordinary profile) (.empty w) s) :
    Dispatched cfg profile w s [] [] := by
  induction h with
  | refl => exact .start
  | tail before meets moved ih => exact ih.service meets moved

/-- The service only ever adds events at the end of its outbox. -/
theorem events_grow (kept : (Lifecycle.discipline profile).Kept s)
    (inv : Lifecycle.Inv s.world s.running ((Lifecycle.discipline profile).statuses s))
    (moved : step (system cfg profile) l s = some s') :
    s.world.store.events <+: s'.world.store.events := by
  have same {w : World} (h : w.store = s.world.store) :
      s.world.store.events <+: w.store.events := by
    rw [h]
  cases step_moves _ moved with
  | call idle new => exact List.prefix_refl _
  | @reply l t T e k r w task code delivered =>
    have follows := kept t T task
    rw [code] at follows
    have good := inv.good ((Lifecycle.discipline profile).statuses_of_task task)
    have appended (events : List EventEnvelope)
        (owned : ((Lifecycle.discipline profile).phase T).owns events) :
        s.world.store.events <+: events.foldl InMemoryPaymentStore.putEvent s.world.store.events := by
      rw [append_fresh _ _ owned.1 (good.fresh owned)]
      exact List.prefix_append ..
    cases e with
    | store e =>
      obtain ⟨m, rfl, outcome⟩ := store_outcome delivered
      cases outcome with
      | done =>
        cases e with
        | append events => exact appended events follows.1.1
        | saveWithEvents p events => exact appended events follows.1.1
        | _ => exact List.prefix_refl _
      | copied => exact List.prefix_refl _
      | @failed _ _ x stored external failing raised =>
        cases stored with
        | false => exact List.prefix_refl _
        | true =>
          cases e with
          | append events => exact appended events follows.1.1
          | saveWithEvents p events => exact appended events follows.1.1
          | _ => exact List.prefix_refl _
    | _ => exact same ((reply_touches delivered).store fun _ => Effect.noConfusion)
  | @wait l t T e k w task code delivered =>
    cases e with
    | store e => exact same (by rw [store_wait delivered])
    | _ => exact same ((wait_touches delivered).store fun _ => Effect.noConfusion)
  | outside idle stepped => exact same (outside_frame stepped).store

variable (reliable : Ledger.Reliable profile cfg.coordinator) (outbox : cfg.outbox = .store)
  {circuit : CircuitBreaker} {concurrency : List (Provider × ℕ)}

include reliable outbox

theorem dispatched_inv (h : Dispatched cfg profile (.initial circuit concurrency) s published
    accepted) : (Lifecycle.discipline profile).Kept s ∧
      Lifecycle.Inv s.world s.running ((Lifecycle.discipline profile).statuses s) :=
  (Lifecycle.maintains reliable outbox).reaches_empty (Lifecycle.inv_initial circuit concurrency)
    h.reaches

/-- What a dispatcher has published is in the table. -/
theorem dispatched_known (h : Dispatched cfg profile (.initial circuit concurrency) s published
    accepted) : ∀ id ∈ published, id ∈ ids s.world.store.events := by
  induction h with
  | start => exact nofun
  | service before meets moved ih =>
    intro id hid
    obtain ⟨kept, inv⟩ := dispatched_inv reliable outbox before
    exact (List.IsPrefix.map EventEnvelope.id (events_grow kept inv moved)).subset (ih id hid)
  | @round s published accepted ordered d limit before arranged o done ih =>
    subst done
    by_cases negative : limit < 0
    · rw [round_negative d negative]
      exact ih
    · have known : ∀ row ∈ ordered, row ∈ s.world.store.events :=
        fun row hrow => (List.mem_filter.mp (arranged.perm.subset hrow)).1
      rw [round_alone d (not_lt.mp negative) known]
      intro id hid
      obtain hid | hid := List.mem_append.mp hid
      · exact ih id hid
      · obtain ⟨row, hrow, rfl⟩ := List.mem_map.mp hid
        exact List.mem_map_of_mem (known row (List.mem_of_mem_take hrow))

theorem dispatched_in_order (h : Dispatched cfg profile (.initial circuit concurrency) s published
    accepted) (id : Uuid)
    (increasing : Increasing EventEnvelope.occurredAt (eventsOf id s.world.store.events)) :
    ∃ todo, InOrder id s.world.store.events published accepted todo := by
  induction h with
  | start => exact ⟨[], rfl, nofun, nofun⟩
  | @service s s' l published accepted before meets moved ih =>
    obtain ⟨kept, inv⟩ := dispatched_inv reliable outbox before
    have after := (dispatched_inv reliable outbox (before.service meets moved)).2.books.distinct
    obtain ⟨new, hnew⟩ := events_grow kept inv moved
    rw [← hnew] at after increasing ⊢
    rw [Lifecycle.eventsOf_append] at increasing
    obtain ⟨todo, inOrder⟩ := ih (increasing.sublist (List.sublist_append_left ..))
    refine ⟨_, inOrder.grow fun event he hid => ?_⟩
    rw [ids_append] at after
    exact (List.nodup_append.mp after).2.2 _ (dispatched_known reliable outbox before _ hid) _
      (List.mem_map_of_mem he) rfl
  | @round s published accepted ordered d limit before arranged o done ih =>
    subst done
    obtain ⟨todo, inOrder⟩ := ih increasing
    by_cases negative : limit < 0
    · rw [round_negative d negative]
      exact ⟨todo, inOrder⟩
    · rw [round_alone d (not_lt.mp negative)
        fun row hrow => (List.mem_filter.mp (arranged.perm.subset hrow)).1]
      have inv := (dispatched_inv reliable outbox before).2
      exact inOrder.deliver inv.books.distinct increasing arranged limit.toNat

omit reliable outbox in
theorem dispatched_all
    (h : Reaches (system cfg profile) (Lifecycle.Ordinary profile) (.empty w) s)
    (d : OutboxDispatcher) {ordered : List EventEnvelope}
    (arranged : Arranges s.world.store.events ordered) :
    Dispatched cfg profile w s (ids ordered) ordered := by
  have all : unsent s.world.store.events [] = s.world.store.events := by simp [unsent]
  have arranged' : Arranges (unsent s.world.store.events []) ordered := by rwa [all]
  have round := (dispatched_of_reaches h).round d ordered.length arranged' rfl
  rw [round_alone d (Int.natCast_nonneg _) fun row hrow => arranged.perm.subset hrow] at round
  simpa [deliver] using round

def dispatcher : OutboxDispatcher := default

/-- Whatever batches a dispatcher takes, it publishes the events of a payment in the order in
which the service emitted them if and only if their timestamps increase. -/
theorem publishes_in_order
    (h : Reaches (system cfg profile) (Lifecycle.Ordinary profile)
      (.empty (.initial circuit concurrency)) s) {id : Uuid}
    (stored : s.world.store.payments id ≠ none) :
    Lifecycle.Complete id (eventsOf id s.world.store.events) ∧
      ((∀ published accepted,
        Dispatched cfg profile (.initial circuit concurrency) s published accepted →
          eventsOf id accepted <+: eventsOf id s.world.store.events) ↔
        (eventsOf id s.world.store.events).Pairwise fun a b => a.occurredAt < b.occurredAt) := by
  have books := (dispatched_inv reliable outbox (dispatched_of_reaches h)).2.books
  refine ⟨books.complete stored, fun ordered => ?_, fun increasing published accepted run => ?_⟩
  · apply (SortedBy.increasing_iff (List.Nodup.of_map _ books.distinct) _).mpr
    intro rows arranged
    have published := ordered _ _ (dispatched_all h dispatcher arranged)
    apply published.eq_of_length
    exact (arranged.perm.filter _).length_eq
  · obtain ⟨todo, inOrder⟩ := dispatched_in_order reliable outbox run id increasing
    exact ⟨todo, inOrder.split.symm⟩

end Runs

def database : Profile := { storage := .external }

/-- The labels that make an operation of the store raise. -/
def failing : ServiceLabel → Bool
  | .enter _ (.fail _ _) => true
  | .resume _ (.fail _ _) => true
  | _ => false

theorem ordinary_of_quiet {ls : List ServiceLabel} (quiet : ∀ l ∈ ls, failing l = false)
    (l : ServiceLabel) (hl : l ∈ ls) (s : ServiceState) : Lifecycle.Ordinary database s l := by
  intro _ t error stored
  constructor
  · rintro rfl
    cases quiet _ hl
  · rintro rfl
    cases quiet _ hl

/-- A payment whose three events are stamped a second after one another. -/
def spreadRun : List ServiceLabel :=
  create 0 0 (card "a") 1 ++ ask 0 0 ++ start 0 ++ returns 0 "reference" ++
  Scenario.recordSuccess 0 0 ++ event 0 1 ++ event 0 2 ++ event 0 3 ++ [.enter 0 .go, .enter 0 .go]

theorem publishes_in_order_spread : ∃ s : ServiceState,
    (eventsOf 0 s.world.store.events).length = 3 ∧
    Lifecycle.Complete 0 (eventsOf 0 s.world.store.events) ∧
    ∀ published accepted,
      Dispatched (service ["stripe"] 1) database (.initial fragile []) s published accepted →
        eventsOf 0 accepted <+: eventsOf 0 s.world.store.events := by
  have h : ∃ s ∈ run (system (service ["stripe"] 1) database) spreadRun
      (.empty (.initial fragile [])), s.world.store.payments 0 ≠ none ∧
      (eventsOf 0 s.world.store.events).length = 3 ∧
      (eventsOf 0 s.world.store.events).Pairwise fun a b => a.occurredAt < b.occurredAt := by
    decide +kernel
  obtain ⟨s, moved, stored, length, increasing⟩ := h
  obtain ⟨complete, ordered⟩ := publishes_in_order (Ledger.reliable_direct rfl) rfl
    (run_reaches _ (throughout_of_forall _ (ordinary_of_quiet (by decide)) _) moved) stored
  exact ⟨s, length, complete, ordered.mpr increasing⟩

/-- The three events of a payment are stamped within the resolution of the clock, and the
database returns them the other way round. -/
theorem tied_events_reversed : ∃ (s : ServiceState) (published : List Uuid)
    (accepted : List EventEnvelope),
    Dispatched (service ["stripe"] 1) database (.initial fragile []) s published accepted ∧
      s.world.store.payments 0 ≠ none ∧
      (eventsOf 0 s.world.store.events).Pairwise (fun a b => a.occurredAt ≤ b.occurredAt) ∧
      ¬ eventsOf 0 accepted <+: eventsOf 0 s.world.store.events := by
  have h : ∃ s ∈ run (system (service ["stripe"] 1) database) (paidRun 0 0 "a")
      (.empty (.initial fragile [])), s.world.store.payments 0 ≠ none ∧
      s.world.store.events.Pairwise (fun a b => a.occurredAt ≤ b.occurredAt) ∧
      s.world.store.events.reverse.Pairwise (fun a b => a.occurredAt ≤ b.occurredAt) ∧
      ¬ eventsOf 0 s.world.store.events.reverse <+: eventsOf 0 s.world.store.events := by
    decide +kernel
  obtain ⟨s, moved, stored, sorted, reversed, differ⟩ := h
  have reached := run_reaches _ (throughout_of_forall _ (ordinary_of_quiet (by decide)) _) moved
  exact ⟨s, _, _, dispatched_all reached dispatcher ⟨List.reverse_perm _, reversed⟩, stored,
    sorted.filter _, differ⟩

end PySwitch.PublishOrder
