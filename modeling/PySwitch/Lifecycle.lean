import PySwitch.Answers
import PySwitch.LifecycleProtocol

namespace PySwitch.Lifecycle

open Async Service OutboxLog

/-- The events of a payment, from its creation to its refunds. -/
def Complete (id : Uuid) (events : List EventEnvelope) : Prop :=
  ∃ created processing final refunded, events = created :: processing :: final :: refunded ∧
    Tells id .paymentCreated .processing created ∧
    Tells id .paymentProcessing .processing processing ∧
    (Tells id .paymentSucceeded .succeeded final ∨ Tells id .paymentFailed .failed final) ∧
    ∀ event ∈ refunded, ∃ status, Tells id .paymentRefunded status event

theorem Opening.complete {p : Payment} {events : List EventEnvelope} (h : Opening p events) :
    Complete p.id events := by
  obtain ⟨created, processing, final, rfl, hc, hp, ⟨-, hf⟩ | ⟨-, hf⟩⟩ := h
  · exact ⟨created, processing, final, [], rfl, hc, hp, .inl hf, nofun⟩
  · exact ⟨created, processing, final, [], rfl, hc, hp, .inr hf, nofun⟩

theorem Complete.refunded {id : Uuid} {events : List EventEnvelope} (h : Complete id events)
    {status : PaymentStatus} {event : EventEnvelope}
    (tells : Tells id .paymentRefunded status event) : Complete id (events ++ [event]) := by
  obtain ⟨created, processing, final, refunded, rfl, hc, hp, hf, hr⟩ := h
  refine ⟨created, processing, final, refunded ++ [event], rfl, hc, hp, hf, fun e he => ?_⟩
  obtain he | he := List.mem_append.mp he
  · exact hr e he
  · obtain rfl := List.mem_singleton.mp he
    exact ⟨status, tells⟩

/-- Every event is about the payment. -/
def About (id : Uuid) (events : List EventEnvelope) : Prop :=
  ∀ event ∈ events, event.aggregateId = some id

theorem Opening.about {p : Payment} {events : List EventEnvelope} (h : Opening p events) :
    About p.id events := by
  obtain ⟨created, processing, final, rfl, hc, hp, hf⟩ := h
  intro event he
  have hf : final.aggregateId = some p.id := by
    obtain ⟨-, hf⟩ | ⟨-, hf⟩ := hf <;> exact hf.aggregateId_eq
  simp only [List.mem_cons, List.not_mem_nil, or_false] at he
  obtain rfl | rfl | rfl := he
  · exact hc.aggregateId_eq
  · exact hp.aggregateId_eq
  · exact hf

theorem Mode.saves.about {m : Mode} {p : Payment} {events : List EventEnvelope}
    (h : m.saves p events) : About p.id events := by
  cases m with
  | draft id => exact h.2.2.about
  | applying q =>
    obtain ⟨refund, event, -, rfl, tells⟩ := h
    intro e he
    obtain rfl := List.mem_singleton.mp he
    exact tells.aggregateId_eq
  | _ => exact h.elim

theorem eventsOf_append (id : Uuid) (a b : List EventEnvelope) :
    eventsOf id (a ++ b) = eventsOf id a ++ eventsOf id b := List.filter_append ..

theorem eventsOf_none {id : Uuid} {events : List EventEnvelope}
    (h : ∀ event ∈ events, event.aggregateId ≠ some id) : eventsOf id events = [] := by
  rw [eventsOf, List.filter_eq_nil_iff]
  intro event he
  simpa using h event he

theorem About.eventsOf_self {id : Uuid} {events : List EventEnvelope} (h : About id events) :
    eventsOf id events = events := by
  rw [eventsOf, List.filter_eq_self]
  intro event he
  simpa using h event he

theorem About.eventsOf_ne {id other : Uuid} {events : List EventEnvelope} (h : About id events)
    (ne : other ≠ id) : eventsOf other events = [] := by
  apply eventsOf_none
  intro event he
  rw [h event he]
  exact fun hid => ne (Option.some.inj hid).symm

abbrev Statuses : Type := Tid → Option (Status Call Stage)

/-- What holds of the stage of one task. -/
structure Good (w : World) (g : Stage) : Prop where
  drawn : ∀ {id}, id ∈ g.drawn → id < w.shared.nextUuid ∧ id ∉ ids w.store.events
  draft : ∀ {id}, g.mode = .draft id → id < w.shared.nextUuid ∧ w.store.payments id = none
  found : ∀ {id}, g.mode = .found id → w.store.payments id ≠ none
  applying : ∀ {q}, g.mode = .applying q → w.store.payments q.id ≠ none

/-- What holds of the world whatever the tasks are doing. -/
structure Books (w : World) : Prop where
  known : ∀ {id}, id ∈ ids w.store.events → id < w.shared.nextUuid
  distinct : (ids w.store.events).Nodup
  stored : ∀ {id p}, w.store.payments id = some p → p.id = id ∧ id < w.shared.nextUuid
  silent : ∀ {id}, w.store.payments id = none → eventsOf id w.store.events = []
  complete : ∀ {id}, w.store.payments id ≠ none → Complete id (eventsOf id w.store.events)

structure Inv (w : World) (_ : Option Tid) (st : Statuses) : Prop where
  books : Books w
  good : ∀ {t u}, st t = some u → Good w u.phase
  apart : ∀ {t t' u u' id}, st t = some u → st t' = some u' → id ∈ u.phase.drawn →
    id ∈ u'.phase.drawn → t = t'
  drafts : ∀ {t t' u u' id}, st t = some u → st t' = some u' → u.phase.mode = .draft id →
    u'.phase.mode = .draft id → t = t'

/-- The payments and the outbox are the same, and so are the identifiers given out. -/
structure Same (w w' : World) : Prop where
  store : w'.store = w.store
  nextUuid : w'.shared.nextUuid = w.shared.nextUuid

theorem Same.refl (w : World) : Same w w := ⟨rfl, rfl⟩

theorem Same.good {w w' : World} (h : Same w w') {g : Stage} (hg : Good w g) : Good w' g := by
  constructor
  · intro id hid
    rw [h.nextUuid, h.store]
    exact hg.drawn hid
  · intro id hm
    rw [h.nextUuid, h.store]
    exact hg.draft hm
  · intro id hm
    rw [h.store]
    exact hg.found hm
  · intro q hm
    rw [h.store]
    exact hg.applying hm

theorem Same.books {w w' : World} (h : Same w w') (hw : Books w) : Books w' := by
  constructor
  · intro id hid
    rw [h.nextUuid]
    exact hw.known (h.store ▸ hid)
  · rw [h.store]
    exact hw.distinct
  · intro id p hp
    rw [h.nextUuid]
    exact hw.stored (h.store ▸ hp)
  · intro id hp
    rw [h.store] at hp ⊢
    exact hw.silent hp
  · intro id hp
    rw [h.store] at hp ⊢
    exact hw.complete hp

/-- The effects that know of neither the store nor the identifiers. -/
def quiet : Effect → Prop
  | .host .uuid4 => False
  | .store _ => False
  | _ => True

theorem quiet_same {e : Effect} {w w' : World} (h : e.Touches w w') (he : quiet e) : Same w w' := by
  refine ⟨h.store ?_, h.nextUuid ?_⟩
  · rintro a rfl
    exact he
  · rintro rfl
    exact he

/-- Events whose identifiers were drawn for them go to the end of the outbox. -/
structure Appended (events : List EventEnvelope) (w w' : World) : Prop where
  events : w'.store.events = w.store.events ++ events
  nextUuid : w'.shared.nextUuid = w.shared.nextUuid

theorem Good.fresh {w : World} {g : Stage} (hg : Good w g) {events : List EventEnvelope}
    (owned : g.owns events) : ∀ id ∈ ids events, id ∉ ids w.store.events :=
  fun id hid => (hg.drawn (owned.2 id hid)).2

theorem Appended.books {w w' : World} {g : Stage} {events : List EventEnvelope}
    (h : Appended events w w') (hg : Good w g) (owned : g.owns events) (hw : Books w) :
    (∀ {id}, id ∈ ids w'.store.events → id < w'.shared.nextUuid) ∧
      (ids w'.store.events).Nodup := by
  rw [h.events, h.nextUuid, ids_append]
  constructor
  · intro id hid
    obtain hid | hid := List.mem_append.mp hid
    · exact hw.known hid
    · exact (hg.drawn (owned.2 id hid)).1
  · rw [List.nodup_append]
    refine ⟨hw.distinct, owned.1, ?_⟩
    rintro id known other new rfl
    exact hg.fresh owned id new known

/-- What a task has drawn and not used is still unknown to the outbox. -/
theorem Appended.drawn {w w' : World} {x : Stage} {events : List EventEnvelope}
    (h : Appended events w w') (hx : Good w x) {id : Uuid} (hid : id ∈ x.drawn)
    (apart : id ∉ ids events) : id < w'.shared.nextUuid ∧ id ∉ ids w'.store.events := by
  rw [h.nextUuid, h.events, ids_append, List.mem_append, not_or]
  exact ⟨(hx.drawn hid).1, (hx.drawn hid).2, apart⟩

/-- A payment and its events are saved together. -/
structure Saved (p : Payment) (events : List EventEnvelope) (w w' : World) : Prop
    extends Appended events w w' where
  payments : w'.store.payments = Function.update w.store.payments p.id (some p)

namespace Saved

variable {p : Payment} {events : List EventEnvelope} {w w' : World}

theorem stored (h : Saved p events w w') {id : Uuid} (hp : w.store.payments id ≠ none) :
    w'.store.payments id ≠ none := by
  rw [h.payments, Function.update_apply]
  split
  · exact Option.some_ne_none p
  · exact hp

theorem books (h : Saved p events w w') {g : Stage} (hg : Good w g) (owned : g.owns events)
    (about : About p.id events) (fresh : p.id < w.shared.nextUuid)
    (complete : Complete p.id (eventsOf p.id w.store.events ++ events)) (hw : Books w) :
    Books w' := by
  obtain ⟨known, distinct⟩ := h.toAppended.books hg owned hw
  have other {id : Uuid} (hid : id ≠ p.id) :
      eventsOf id w'.store.events = eventsOf id w.store.events ∧
        w'.store.payments id = w.store.payments id := by
    rw [h.events, eventsOf_append, about.eventsOf_ne hid, List.append_nil, h.payments,
      Function.update_of_ne hid]
    exact ⟨rfl, rfl⟩
  refine ⟨known, distinct, fun {id q} hq => ?_, fun {id} hq => ?_, fun {id} hq => ?_⟩
  · rw [h.payments] at hq
    rw [h.nextUuid]
    obtain ⟨rfl, rfl⟩ | ⟨-, hq⟩ := update_cases hq
    · exact ⟨rfl, fresh⟩
    · exact hw.stored hq
  · by_cases hid : id = p.id
    · subst hid
      rw [h.payments, Function.update_self] at hq
      cases hq
    · rw [(other hid).2] at hq
      rw [(other hid).1]
      exact hw.silent hq
  · by_cases hid : id = p.id
    · subst hid
      rw [h.events, eventsOf_append, about.eventsOf_self]
      exact complete
    · rw [(other hid).2] at hq
      rw [(other hid).1]
      exact hw.complete hq

theorem good (h : Saved p events w w') {x : Stage} (hx : Good w x)
    (apart : ∀ id ∈ x.drawn, id ∉ ids events) (draft : x.mode ≠ .draft p.id) : Good w' x := by
  constructor
  · exact fun hid => h.toAppended.drawn hx hid (apart _ hid)
  · intro id hm
    have hid : id ≠ p.id := by
      rintro rfl
      exact draft hm
    rw [h.nextUuid, h.payments, Function.update_of_ne hid]
    exact hx.draft hm
  · exact fun hm => h.stored (hx.found hm)
  · exact fun hm => h.stored (hx.applying hm)

end Saved

section Step

variable {cfg : Config} {profile : Profile} {s : ServiceState} {l : ServiceLabel} {t : Tid}
  {c : Call} {g g' : Stage} {e : Effect} {r : e.Reply} {w : World} {b : Bool}
  (inv : Inv s.world s.running ((discipline profile).statuses s))
  (ht : (discipline profile).statuses s t = some ⟨c, g, false⟩)

include inv ht

/-- What has to be shown of a step that takes a task on to another stage. -/
theorem inv_moves {v : Option Tid} (books : Books w) (self : Good w g')
    (others : ∀ u x, u ≠ t → (discipline profile).statuses s u = some x → Good w x.phase)
    (drawn : ∀ id ∈ g'.drawn, id ∈ g.drawn ∨ s.world.shared.nextUuid ≤ id)
    (draft : ∀ id, g'.mode = .draft id → g.mode = .draft id ∨ s.world.shared.nextUuid ≤ id) :
    Inv w v (Function.update ((discipline profile).statuses s) t (some ⟨c, g', b⟩)) := by
  have apart (u : Tid) (x : Status Call Stage) (hne : u ≠ t)
      (hu : (discipline profile).statuses s u = some x) (id : Uuid) (hid : id ∈ g'.drawn) :
      id ∉ x.phase.drawn := by
    intro hx
    obtain old | new := drawn id hid
    · exact hne (inv.apart hu ht hx old)
    · exact absurd ((inv.good hu).drawn hx).1 (not_lt.mpr new)
  have separate (u : Tid) (x : Status Call Stage) (hne : u ≠ t)
      (hu : (discipline profile).statuses s u = some x) (id : Uuid) (hm : g'.mode = .draft id) :
      x.phase.mode ≠ .draft id := by
    intro hx
    obtain old | new := draft id hm
    · exact hne (inv.drafts hu ht hx old)
    · exact absurd ((inv.good hu).draft hx).1 (not_lt.mpr new)
  constructor
  · exact books
  · intro u x hu
    obtain ⟨-, rfl⟩ | ⟨hne, hu⟩ := update_cases hu
    · exact self
    · exact others u x hne hu
  · intro u u' x x' id hu hu' hid hid'
    obtain ⟨rfl, rfl⟩ | ⟨hne, old⟩ := update_cases hu <;>
      obtain ⟨rfl, rfl⟩ | ⟨hne', old'⟩ := update_cases hu'
    · rfl
    · exact absurd hid' (apart u' x' hne' old' id hid)
    · exact absurd hid (apart u x hne old id hid')
    · exact inv.apart old old' hid hid'
  · intro u u' x x' id hu hu' hm hm'
    obtain ⟨rfl, rfl⟩ | ⟨hne, old⟩ := update_cases hu <;>
      obtain ⟨rfl, rfl⟩ | ⟨hne', old'⟩ := update_cases hu'
    · rfl
    · exact absurd hm' (separate u' x' hne' old' id hm)
    · exact absurd hm (separate u x hne old id hm')
    · exact inv.drafts old old' hm hm'

theorem inv_same {v : Option Tid} (same : Same s.world w) (self : Good s.world g')
    (drawn : ∀ id ∈ g'.drawn, id ∈ g.drawn)
    (draft : ∀ id, g'.mode = .draft id → g.mode = .draft id) :
    Inv w v (Function.update ((discipline profile).statuses s) t (some ⟨c, g', b⟩)) :=
  inv_moves inv ht (same.books inv.books) (same.good self)
    (fun _ _ _ hu => same.good (inv.good hu)) (fun id hid => .inl (drawn id hid))
    fun id hm => .inl (draft id hm)

theorem inv_uuid4 {id : Uuid} {v : Option Tid}
    (h : Delivered (system cfg profile) s l t (.host .uuid4) (.reply id w)) :
    Inv w v (Function.update ((discipline profile).statuses s) t (some ⟨c, g.draw id, b⟩)) := by
  obtain ⟨rfl, rfl⟩ := uuid4_reply h
  have good := inv.good ht
  have frame {x : Stage} (hx : Good s.world x) :
      Good { s.world with shared.nextUuid := s.world.shared.nextUuid + 1 } x :=
    ⟨fun hid => ⟨Nat.lt_succ_of_lt (hx.drawn hid).1, (hx.drawn hid).2⟩,
      fun hm => ⟨Nat.lt_succ_of_lt (hx.draft hm).1, (hx.draft hm).2⟩, hx.found, hx.applying⟩
  have books : Books { s.world with shared.nextUuid := s.world.shared.nextUuid + 1 } :=
    ⟨fun hid => Nat.lt_succ_of_lt (inv.books.known hid), inv.books.distinct,
      fun hp => ⟨(inv.books.stored hp).1, Nat.lt_succ_of_lt (inv.books.stored hp).2⟩,
      inv.books.silent, inv.books.complete⟩
  have unused : s.world.shared.nextUuid ∉ ids s.world.store.events :=
    fun hid => absurd (inv.books.known hid) (Nat.lt_irrefl _)
  have unstored : s.world.store.payments s.world.shared.nextUuid = none := by
    cases hn : s.world.store.payments s.world.shared.nextUuid with
    | none => rfl
    | some p => exact absurd (inv.books.stored hn).2 (Nat.lt_irrefl _)
  by_cases ordered : g.mode = .ordered
  · obtain ⟨drawn, m⟩ := g
    obtain rfl : m = .ordered := ordered
    apply inv_moves inv ht books ?_ (fun _ _ _ hu => frame (inv.good hu))
    · exact fun id hid => .inl hid
    · intro id hm
      obtain rfl := Mode.draft.inj hm
      exact .inr (Nat.le_refl _)
    · constructor
      · exact (frame good).drawn
      · intro id hm
        obtain rfl := Mode.draft.inj hm
        exact ⟨Nat.lt_succ_self _, unstored⟩
      · exact nofun
      · exact nofun
  · rw [Stage.draw_of_ne ordered]
    apply inv_moves inv ht books ?_ (fun _ _ _ hu => frame (inv.good hu))
    · intro id hid
      obtain rfl | hid := List.mem_cons.mp hid
      · exact .inr (Nat.le_refl _)
      · exact .inl hid
    · exact fun id hm => .inl hm
    · have framed := frame good
      constructor
      · intro id hid
        obtain rfl | hid := List.mem_cons.mp hid
        · exact ⟨Nat.lt_succ_self _, unused⟩
        · exact framed.drawn hid
      · exact framed.draft
      · exact framed.found
      · exact framed.applying

/-- A stage in which identifiers were used up, whether or not the outbox has taken the events. -/
theorem used_good (events : List EventEnvelope) : Good s.world (g.use events) :=
  have good := inv.good ht
  ⟨fun hid => good.drawn (List.mem_filter.mp hid).1, good.draft, good.found, good.applying⟩

omit inv ht in
theorem used_apart {events : List EventEnvelope} {id : Uuid} (hid : id ∈ (g.use events).drawn) :
    id ∉ ids events := by
  simpa using (List.mem_filter.mp hid).2

theorem inv_append {events : List EventEnvelope} {r : Except Exn Unit} {v : Option Tid}
    (hok : ok profile g (.store (.append events)))
    (h : Delivered (system cfg profile) s l t (.store (.append events)) (.reply r w)) :
    Inv w v (Function.update ((discipline profile).statuses s) t (some ⟨c, g.use events, b⟩)) := by
  obtain ⟨owned, alien, -⟩ := hok
  obtain ⟨m, rfl, outcome⟩ := store_outcome h
  have good := inv.good ht
  have kept (hm : m = s.world.store) : Inv (Effect.setStore s.world m) v
      (Function.update ((discipline profile).statuses s) t (some ⟨c, g.use events, b⟩)) := by
    subst hm
    apply inv_same inv ht ⟨rfl, rfl⟩ (used_good inv ht events)
    · exact fun id hid => (List.mem_filter.mp hid).1
    · exact fun id hm => hm
  have done (hm : m = s.world.store.append events) : Inv (Effect.setStore s.world m) v
      (Function.update ((discipline profile).statuses s) t (some ⟨c, g.use events, b⟩)) := by
    subst hm
    have appended : Appended events s.world (Effect.setStore s.world (s.world.store.append events)) :=
      ⟨append_fresh _ _ owned.1 (good.fresh owned), rfl⟩
    have quiet (id : Uuid) : eventsOf id (s.world.store.append events).events =
        eventsOf id s.world.store.events := by
      have hevents : (s.world.store.append events).events = s.world.store.events ++ events :=
        appended.events
      have none : eventsOf id events = [] := eventsOf_none fun e he => by simp [alien e he]
      rw [hevents, eventsOf_append, none, List.append_nil]
    obtain ⟨known, distinct⟩ := appended.books good owned inv.books
    apply inv_moves inv ht
    · refine ⟨known, distinct, inv.books.stored, fun {id} hp => ?_, fun {id} hp => ?_⟩
      · exact (quiet id).trans (inv.books.silent hp)
      · exact (quiet id).symm ▸ inv.books.complete hp
    · constructor
      · intro id hid
        exact appended.drawn (used_good inv ht events) hid (used_apart hid)
      · exact good.draft
      · exact good.found
      · exact good.applying
    · intro u x hne hu
      have hx := inv.good hu
      refine ⟨fun {id} hid => appended.drawn hx hid fun used => ?_, hx.draft, hx.found,
        hx.applying⟩
      exact hne (inv.apart hu ht hid (owned.2 id used))
    · exact fun id hid => .inl (List.mem_filter.mp hid).1
    · exact fun id hm => .inl hm
  cases outcome with
  | done => exact done rfl
  | @failed _ _ x stored external failing raised =>
    cases stored with
    | true => exact done rfl
    | false => exact kept rfl

/-- With the events it is saved with, a payment has all its events. -/
theorem save_complete {p : Payment} {events : List EventEnvelope} (saves : g.mode.saves p events) :
    p.id < s.world.shared.nextUuid ∧
      Complete p.id (eventsOf p.id s.world.store.events ++ events) := by
  have good := inv.good ht
  obtain ⟨drawn, m⟩ := g
  cases m with
  | draft id =>
    obtain ⟨rfl, -, opening⟩ := saves
    obtain ⟨fresh, new⟩ := good.draft rfl
    rw [inv.books.silent new, List.nil_append]
    exact ⟨fresh, opening.complete⟩
  | applying q =>
    obtain ⟨refund, event, rfl, rfl, tells⟩ := saves
    have stored : s.world.store.payments q.id ≠ none := good.applying rfl
    obtain ⟨p, hp⟩ := Option.ne_none_iff_exists'.mp stored
    exact ⟨(inv.books.stored hp).2, (inv.books.complete stored).refunded tells⟩
  | _ => exact saves.elim

theorem inv_save {p : Payment} {events : List EventEnvelope} {r : Except Exn Unit}
    {v : Option Tid} (hok : ok profile g (.store (.saveWithEvents p events)))
    (h : Delivered (system cfg profile) s l t (.store (.saveWithEvents p events)) (.reply r w)) :
    Inv w v (Function.update ((discipline profile).statuses s) t
      (some ⟨c, { g.use events with mode := .rest }, b⟩)) := by
  obtain ⟨owned, saves⟩ := hok
  obtain ⟨m, rfl, outcome⟩ := store_outcome h
  have good := inv.good ht
  have used := used_good inv ht events
  have kept (hm : m = s.world.store) : Inv (Effect.setStore s.world m) v
      (Function.update ((discipline profile).statuses s) t
        (some ⟨c, { g.use events with mode := .rest }, b⟩)) := by
    subst hm
    apply inv_same inv ht ⟨rfl, rfl⟩
    · exact ⟨used.drawn, nofun, nofun, nofun⟩
    · exact fun id hid => (List.mem_filter.mp hid).1
    · exact nofun
  have done (hm : m = s.world.store.saveWithEvents p events) : Inv (Effect.setStore s.world m) v
      (Function.update ((discipline profile).statuses s) t
        (some ⟨c, { g.use events with mode := .rest }, b⟩)) := by
    subst hm
    have saved : Saved p events s.world
        (Effect.setStore s.world (s.world.store.saveWithEvents p events)) :=
      ⟨⟨append_fresh _ _ owned.1 (good.fresh owned), rfl⟩, rfl⟩
    obtain ⟨fresh, complete⟩ := save_complete inv ht saves
    apply inv_moves inv ht (saved.books good owned saves.about fresh complete inv.books)
    · refine saved.good ⟨used.drawn, nofun, nofun, nofun⟩ (fun _ hid => used_apart hid) nofun
    · intro u x hne hu
      apply saved.good (inv.good hu)
      · exact fun id hid new => hne (inv.apart hu ht hid (owned.2 id new))
      · intro hm
        obtain ⟨drawn, m⟩ := g
        cases m with
        | draft id =>
          obtain ⟨rfl, -, -⟩ := saves
          exact hne (inv.drafts hu ht hm rfl)
        | applying q =>
          obtain ⟨refund, event, rfl, -, -⟩ := saves
          exact good.applying rfl ((inv.good hu).draft hm).2
        | _ => exact saves.elim
    · exact fun id hid => .inl (List.mem_filter.mp hid).1
    · exact nofun
  cases outcome with
  | done => exact done rfl
  | @failed _ _ x stored external failing raised =>
    cases stored with
    | true => exact done rfl
    | false => exact kept rfl

theorem inv_get {paymentId : Uuid} {r : Except Exn (Option Payment)} {v : Option Tid}
    (h : Delivered (system cfg profile) s l t (.store (.get paymentId)) (.reply r w)) :
    Inv w v (Function.update ((discipline profile).statuses s) t
      (some ⟨c, next g (.store (.get paymentId)) r, b⟩)) := by
  have good := inv.good ht
  obtain ⟨m, rfl, outcome⟩ := store_outcome h
  have unmoved (hm : m = s.world.store) : Inv (Effect.setStore s.world m) v
      (Function.update ((discipline profile).statuses s) t (some ⟨c, g, b⟩)) := by
    subst hm
    exact inv_same inv ht ⟨rfl, rfl⟩ good (fun _ hid => hid) fun _ hm => hm
  cases outcome with
  | done =>
    cases found : s.world.store.payments paymentId with
    | none =>
      have hr : s.world.store.answer (.get paymentId) = .ok none := congrArg Except.ok found
      rw [hr]
      exact unmoved rfl
    | some p =>
      have hr : s.world.store.answer (.get paymentId) = .ok (some p) := congrArg Except.ok found
      rw [hr]
      obtain ⟨drawn, mode⟩ := g
      cases mode with
      | rest =>
        apply inv_same inv ht ⟨rfl, rfl⟩
        · refine ⟨good.drawn, nofun, fun {id} hm => ?_, nofun⟩
          obtain rfl := Mode.found.inj hm
          rw [(inv.books.stored found).1, found]
          exact Option.some_ne_none p
        · exact fun _ hid => hid
        · exact nofun
      | _ => exact unmoved rfl
  | @failed _ r x stored external failing raised =>
    cases r with
    | ok => cases raised
    | error x => exact unmoved (by cases stored <;> rfl)

theorem inv_reread {p q : Payment} {v : Option Tid} (hok : ok profile g (.store (.reread p)))
    (h : Delivered (system cfg profile) s l t (.store (.reread p)) (.reply q w)) :
    q.id = p.id ∧ Inv w v (Function.update ((discipline profile).statuses s) t
      (some ⟨c, { g with mode := .applying q }, b⟩)) := by
  have good := inv.good ht
  have stored := good.found hok
  obtain ⟨m, rfl, outcome⟩ := store_outcome h
  have same : q.id = p.id ∧ m = s.world.store := by
    cases outcome with
    | done =>
      obtain ⟨q, hq⟩ := Option.ne_none_iff_exists'.mp stored
      have hr : s.world.store.answer (.reread p) = q := by
        show (s.world.store.payments p.id).getD p = q
        rw [hq, Option.getD_some]
      rw [hr]
      exact ⟨(inv.books.stored hq).1, rfl⟩
    | copied => exact ⟨rfl, rfl⟩
    | failed external failing raised => cases raised
  obtain ⟨hid, rfl⟩ := same
  refine ⟨hid, inv_same inv ht ⟨rfl, rfl⟩ ⟨good.drawn, nofun, nofun, fun hm => ?_⟩ ?_ nofun⟩
  · obtain rfl := Mode.applying.inj hm
    rwa [hid]
  · exact fun _ hid => hid

/-- A reply that changes neither the store nor the identifiers given out. -/
theorem inv_quiet {v : Option Tid} (h : Delivered (system cfg profile) s l t e (.reply r w))
    (he : quiet e) :
    Inv w v (Function.update ((discipline profile).statuses s) t (some ⟨c, g, b⟩)) :=
  inv_same inv ht (quiet_same (reply_touches h) he) (inv.good ht) (fun _ hid => hid)
    fun _ hm => hm

theorem inv_reply {v : Option Tid} (hok : ok profile g e)
    (h : Delivered (system cfg profile) s l t e (.reply r w)) :
    Inv w v (Function.update ((discipline profile).statuses s) t (some ⟨c, next g e r, b⟩)) := by
  cases e with
  | host e =>
    cases e with
    | uuid4 => exact inv_uuid4 inv ht h
    | _ => exact inv_quiet inv ht h trivial
  | store e =>
    cases e with
    | get paymentId => exact inv_get inv ht h
    | getByIdempotency key =>
      obtain ⟨m, rfl, outcome⟩ := store_outcome h
      have same : m = s.world.store := by
        cases outcome with
        | done => rfl
        | @failed _ _ x stored external failing raised => cases stored <;> rfl
      subst same
      exact inv_same inv ht ⟨rfl, rfl⟩ (inv.good ht) (fun _ hid => hid) fun _ hm => hm
    | save p => exact hok.elim
    | saveWithEvents p events => exact inv_save inv ht hok h
    | append events => exact inv_append inv ht hok h
    | reread p => exact (inv_reread inv ht hok h).2
  | _ => exact inv_quiet inv ht h trivial

omit inv ht

/-- A store that raises an exception was made to by the environment. -/
def Ordinary (profile : Profile) (_ : ServiceState) (l : ServiceLabel) : Prop :=
  profile.storage = .external → ∀ t error stored,
    l ≠ .enter t (.fail (.provider error) stored) ∧ l ≠ .resume t (.fail (.provider error) stored)

include inv ht

theorem reply_may (meets : Ordinary profile s l) (hok : ok profile g e)
    (h : Delivered (system cfg profile) s l t e (.reply r w)) : may g e r := by
  cases e with
  | host e =>
    cases e with
    | uuid4 =>
      obtain ⟨rfl, -⟩ := uuid4_reply h
      exact fun hid => absurd ((inv.good ht).drawn hid).1 (Nat.lt_irrefl _)
    | _ => trivial
  | store e =>
    cases e with
    | reread p => exact (inv_reread (v := none) (b := true) inv ht hok h).1
    | saveWithEvents p events =>
      cases r with
      | ok => trivial
      | error x =>
        rintro error rfl
        obtain ⟨m, -, outcome⟩ := store_outcome h
        cases outcome with
        | @failed _ _ x stored external failing raised =>
          obtain rfl : .provider error = x := Option.some.inj raised
          obtain ⟨enter, resume⟩ := meets external t error stored
          exact failing.elim enter resume
    | _ => trivial
  | coordinator e =>
    cases e with
    | complete key fingerprint paymentId =>
      obtain rfl | ⟨message, rfl⟩ := complete_direct_reply hok.1 h
      · trivial
      · exact nofun
    | _ => trivial
  | _ => trivial

omit ht in
theorem inv_wait (h : Delivered (system cfg profile) s l t e (.wait w)) :
    Inv w none ((discipline profile).statuses s) := by
  have same : Same s.world w := by
    cases e with
    | host e =>
      cases e with
      | uuid4 => exact absurd h uuid4_never_waits
      | _ => exact quiet_same (wait_touches h) trivial
    | store e =>
      obtain rfl := store_wait h
      exact .refl _
    | _ => exact quiet_same (wait_touches h) trivial
  exact ⟨same.books inv.books, fun hu => same.good (inv.good hu), inv.apart, inv.drafts⟩

end Step

theorem inv_call {w : World} {st : Statuses} {t : Tid} {c : Call} {b : Bool} {v : Option Tid}
    (inv : Inv w none st) :
    Inv w v (Function.update st t (some ⟨c, first c, b⟩)) := by
  have drawn : (first c).drawn = [] := by cases c <;> rfl
  have mode {m : Mode} (hm : (first c).mode = m) : m = .ordered ∨ m = .rest := by
    subst hm
    cases c with
    | create data => exact .inl rfl
    | _ => exact .inr rfl
  have draft {id : Uuid} (hm : (first c).mode = .draft id) : False := by
    obtain h | h := mode hm <;> cases h
  constructor
  · exact inv.books
  · intro u x hu
    obtain ⟨-, rfl⟩ | ⟨-, hu⟩ := update_cases hu
    · constructor
      · intro id hid
        rw [show (first c).drawn = [] from drawn] at hid
        cases hid
      · exact fun hm => (draft hm).elim
      · intro id hm
        obtain h | h := mode hm <;> cases h
      · intro q hm
        obtain h | h := mode hm <;> cases h
    · exact inv.good hu
  · intro u u' x x' id hu hu' hid hid'
    obtain ⟨-, rfl⟩ | ⟨-, hu⟩ := update_cases hu
    · rw [show (first c).drawn = [] from drawn] at hid
      cases hid
    · obtain ⟨-, rfl⟩ | ⟨-, hu'⟩ := update_cases hu'
      · rw [show (first c).drawn = [] from drawn] at hid'
        cases hid'
      · exact inv.apart hu hu' hid hid'
  · intro u u' x x' id hu hu' hm hm'
    obtain ⟨-, rfl⟩ | ⟨-, hu⟩ := update_cases hu
    · exact (draft hm).elim
    · obtain ⟨-, rfl⟩ | ⟨-, hu'⟩ := update_cases hu'
      · exact (draft hm').elim
      · exact inv.drafts hu hu' hm hm'

theorem inv_outside {a : Outside} {w w' : World} {st : Statuses} (inv : Inv w none st)
    (h : a.apply w = some w') : Inv w' none st := by
  have frame := outside_frame h
  have same : Same w w' := ⟨frame.store, frame.nextUuid⟩
  exact ⟨same.books inv.books, fun hu => same.good (inv.good hu), inv.apart, inv.drafts⟩

theorem inv_initial (circuit : CircuitBreaker) (concurrency : List (Provider × ℕ)) :
    Inv (.initial circuit concurrency) none fun _ => none where
  books := ⟨nofun, List.nodup_nil, nofun, fun _ => rfl, fun h => absurd rfl h⟩
  good := nofun
  apart := nofun
  drafts := nofun

theorem maintains {cfg : Config} {profile : Profile}
    (reliable : Ledger.Reliable profile cfg.coordinator) (outbox : cfg.outbox = .store) :
    Maintains (system cfg profile) (Ordinary profile) (discipline profile) Inv where
  follows := run_follows reliable outbox
  call := fun _ inv _ _ => inv_call inv
  reply := fun meets inv ht hok h =>
    ⟨reply_may inv ht meets hok h, fun _ _ _ => inv_reply inv ht hok h⟩
  wait := fun _ inv _ _ h => inv_wait inv h
  outside := fun _ inv h => inv_outside inv h

end PySwitch.Lifecycle
