import PySwitch.Answers
import PySwitch.ClaimProtocol

namespace PySwitch.Claim

open Async Program Service

/-- The call holds the claim on its key. -/
def Stage.holding : Stage → Prop
  | .owner => True
  | .drafted _ => True
  | .charged _ => True
  | .stored _ => True
  | _ => False

/-- The call holds the claim, or has completed it. -/
def Stage.won : Stage → Prop
  | .completed _ => True
  | g => g.holding

/-- From the provider's result to the completion of the claim the call does not suspend. -/
def Stage.pending : Stage → Prop
  | .charged _ => True
  | .stored _ => True
  | _ => False

/-- The payment the store has for a request. -/
structure Stored (w : World) (q : Request) (p : Payment) : Prop where
  keyed : w.store.keys q.key = some p.id
  found : w.store.payments p.id = some p
  fits : Matches q p

def records (w : World) (key : RecordKey) : Option IdempotencyRecord :=
  w.process.idempotency.records key

/-- What holds of the stage of a call with a given request. -/
structure Good (w : World) (q : Request) (g : Stage) : Prop where
  held : g.holding → records w q.key = some ⟨q.fingerprint, none, false⟩
  unkeyed : g.holding → (∀ p, g ≠ .stored p) → w.store.keys q.key = none
  draft : ∀ {id}, g.draft = some id → id < w.shared.nextUuid ∧ w.store.payments id = none
  stored : ∀ {p}, g = .stored p → Stored w q p
  completed : ∀ {p}, g = .completed p →
    Stored w q p ∧ records w q.key = some ⟨q.fingerprint, some p.id, true⟩
  replaying : ∀ {id}, g = .replaying id → ∃ p, p.id = id ∧ Stored w q p
  replayed : ∀ {found}, g = .replayed found → ∃ p, found = some p ∧ Stored w q p

/-- What holds of the coordinator and the store whatever the tasks are doing. -/
structure Books (w : World) : Prop where
  vacant : ∀ {key}, records w key = none → w.store.keys key = none
  completed : ∀ {key r}, records w key = some r → r.completed = true →
    ∃ p, r.paymentId = some p.id ∧ Stored w ⟨key, r.fingerprint⟩ p
  awaited : ∀ {key r}, records w key = some r → r.completed = false →
    w.process.idempotency.events key ≠ none
  keyed : ∀ {id p}, w.store.payments id = some p →
    p.id = id ∧ w.store.keys p.key = some id ∧ id < w.shared.nextUuid

abbrev Statuses : Type := Tid → Option (Status Call Stage)

structure Inv (cfg : Config) (w : World) (running : Option Tid) (st : Statuses) : Prop where
  books : Books w
  creates : ∀ {t u}, st t = some u → ∃ data, u.call = .create data
  good : ∀ {t u q}, st t = some u → request cfg u.call = some q → Good w q u.phase
  unique : ∀ {t t' u u' q q'}, st t = some u → st t' = some u' → request cfg u.call = some q →
    request cfg u'.call = some q' → q.key = q'.key → u.phase.won → u'.phase.won → t = t'
  held : ∀ {key r}, records w key = some r → r.completed = false →
    ∃ t u q, st t = some u ∧ request cfg u.call = some q ∧ q.key = key ∧ u.phase.holding
  drafts : ∀ {t t' u u' id}, st t = some u → st t' = some u' → u.phase.draft = some id →
    u'.phase.draft = some id → t = t'
  pending : ∀ {t u}, st t = some u → u.phase.pending → running = some t

theorem won_of_holding {g : Stage} (h : g.holding) : g.won := by
  cases g <;> first | exact h | trivial

theorem holding_of_draft {g : Stage} {id : Uuid} (h : g.draft = some id) : g.holding := by
  cases g <;> trivial

theorem Stored.unique {w : World} {q q' : Request} {p p' : Payment} (h : Stored w q p)
    (h' : Stored w q' p') (hk : q.key = q'.key) : p = p' := by
  have hid : some p.id = some p'.id := by rw [← h.keyed, ← h'.keyed, hk]
  have hf := h.found
  rw [Option.some.inj hid, h'.found] at hf
  exact (Option.some.inj hf).symm

theorem Good.frame {w w' : World} {q : Request} {g : Stage} (h : Good w q g)
    (held : g.won → records w' q.key = records w q.key)
    (unkeyed : g.holding → w.store.keys q.key = none → w'.store.keys q.key = none)
    (draft : ∀ id, g.draft = some id → w.store.payments id = none → w'.store.payments id = none)
    (stored : ∀ p, Stored w q p → Stored w' q p)
    (nextUuid : w.shared.nextUuid ≤ w'.shared.nextUuid) : Good w' q g where
  held := fun hg => (held (won_of_holding hg)).trans (h.held hg)
  unkeyed := fun hg hs => unkeyed hg (h.unkeyed hg hs)
  draft := fun hd =>
    ⟨Nat.lt_of_lt_of_le (h.draft hd).1 nextUuid, draft _ hd (h.draft hd).2⟩
  stored := fun hg => stored _ (h.stored hg)
  completed := fun hg =>
    ⟨stored _ (h.completed hg).1, by
      rw [held (by rw [hg]; trivial)]
      exact (h.completed hg).2⟩
  replaying := fun hg => by
    obtain ⟨p, hp, hs⟩ := h.replaying hg
    exact ⟨p, hp, stored p hs⟩
  replayed := fun hg => by
    obtain ⟨p, hp, hs⟩ := h.replayed hg
    exact ⟨p, hp, stored p hs⟩

/-- The records, the events and the payments are the same. -/
structure Same (w w' : World) : Prop where
  unmoved : w.process.idempotency.Unmoved w'.process.idempotency
  payments : w'.store.payments = w.store.payments
  keys : w'.store.keys = w.store.keys
  nextUuid : w.shared.nextUuid ≤ w'.shared.nextUuid

namespace Same

variable {w w' : World}

theorem refl (w : World) : Same w w := ⟨⟨rfl, rfl⟩, rfl, rfl, Nat.le_refl _⟩

theorem records (h : Same w w') (key : RecordKey) : records w' key = records w key :=
  congrFun h.unmoved.records key

theorem stored (h : Same w w') {q : Request} {p : Payment} (hp : Stored w q p) : Stored w' q p :=
  ⟨by rw [h.keys]; exact hp.keyed, by rw [h.payments]; exact hp.found, hp.fits⟩

theorem good (h : Same w w') {q : Request} {g : Stage} (hg : Good w q g) : Good w' q g := by
  apply hg.frame
  · exact fun _ => h.records q.key
  · intro _ hk
    rwa [h.keys]
  · intro id _ hn
    rwa [h.payments]
  · exact fun p => h.stored
  · exact h.nextUuid

theorem books (h : Same w w') (hw : Books w) : Books w' where
  vacant := fun hr => by
    rw [h.keys]
    exact hw.vacant (h.records _ ▸ hr)
  completed := fun hr hc => by
    obtain ⟨p, hp, hs⟩ := hw.completed (h.records _ ▸ hr) hc
    exact ⟨p, hp, h.stored hs⟩
  awaited := fun hr hc => by
    rw [h.unmoved.events]
    exact hw.awaited (h.records _ ▸ hr) hc
  keyed := fun hp => by
    rw [h.payments] at hp
    obtain ⟨hid, hk, fresh⟩ := hw.keyed hp
    exact ⟨hid, by rwa [h.keys], Nat.lt_of_lt_of_le fresh h.nextUuid⟩

end Same

/-- Effects that neither the coordinator nor the store knows of. -/
def quiet : Effect → Prop
  | .coordinator _ => False
  | .store _ => False
  | _ => True

theorem quiet_same {e : Effect} (he : quiet e) {w w' : World} (h : e.Touches w w') :
    Same w w' := by
  cases e with
  | host e =>
    obtain rfl | ⟨-, rfl⟩ := h
    · exact .refl _
    · exact ⟨⟨rfl, rfl⟩, rfl, rfl, Nat.le_succ _⟩
  | circuit e => obtain ⟨_, _, _, rfl⟩ := h; exact ⟨⟨rfl, rfl⟩, rfl, rfl, Nat.le_refl _⟩
  | stats e => obtain ⟨_, _, rfl⟩ := h; exact ⟨⟨rfl, rfl⟩, rfl, rfl, Nat.le_refl _⟩
  | provider e =>
    obtain rfl | ⟨_, _, rfl⟩ := h
    · exact .refl _
    · exact ⟨⟨rfl, rfl⟩, rfl, rfl, Nat.le_refl _⟩
  | coordinator e => exact he.elim
  | store e => exact he.elim
  | _ => obtain ⟨_, rfl⟩ := h; exact ⟨⟨rfl, rfl⟩, rfl, rfl, Nat.le_refl _⟩

/-- The protocol of a call that may do anything. -/
def free : Protocol Effect Effect.Reply Stage :=
  ⟨fun _ _ => True, fun _ _ _ => True, fun g _ _ => g⟩

def discipline (cfg : Config) : Discipline Call Effect Effect.Reply (Except Exn Result) Stage where
  protocol := fun
    | .create data => protocol (requestOf cfg data)
    | _ => free
  first := fun _ => .fresh
  post := fun
    | .create _, .ok (.payment p), g => post (.ok p) g
    | .create _, .ok _, _ => False
    | .create _, .error x, g => post (.error x) g
    | _, _, _ => True

theorem post_not_pending {cfg : Config} {c : Call} {a : Except Exn Result} {g : Stage}
    (creates : ∃ data, c = .create data) (h : (discipline cfg).post c a g) : ¬ g.pending := by
  obtain ⟨data, rfl⟩ := creates
  cases a with
  | error x =>
    obtain ⟨rfl, -⟩ | ⟨rfl, -⟩ | rfl | rfl | ⟨p, rfl, -⟩ := h <;> exact id
  | ok result =>
    cases result with
    | payment p => obtain ⟨rfl, -⟩ | rfl := h <;> exact id
    | _ => exact h.elim

section Step

variable {cfg : Config} {profile : Profile} {s : ServiceState} {l : ServiceLabel} {t : Tid}
  {data : PaymentInput} {g m : Stage} {e : Effect} {r : e.Reply} {w : World} {b : Bool}
  {v : Option Tid}

theorem not_pending {a : Answer e.Reply World} {st : Statuses}
    (h : Delivered (system cfg profile) s l t e a) (inv : Inv cfg s.world s.running st) {u : Tid}
    (hu : u ≠ t) {x : Status Call Stage} (hx : st u = some x) : ¬ x.phase.pending :=
  fun hp => hu (h.running (inv.pending hx hp))

theorem goes_pending (hg : Goes (discipline cfg) t (.create data) g b v) (hp : g.pending) :
    v = some t := by
  cases hg with
  | on => rfl
  | ended hpost => exact absurd hp (post_not_pending ⟨data, rfl⟩ hpost)

variable (inv : Inv cfg s.world s.running ((discipline cfg).statuses s))
  (ht : (discipline cfg).statuses s t = some ⟨.create data, g, false⟩)
  (h : Delivered (system cfg profile) s l t e (.reply r w))
  (hg : Goes (discipline cfg) t (.create data) m b v)

include inv ht h hg

/-- What has to be shown of a step that takes a call on to another stage. -/
theorem inv_moves (books : Books w)
    (others : ∀ u x q, u ≠ t → (discipline cfg).statuses s u = some x →
      request cfg x.call = some q → Good s.world q x.phase → Good w q x.phase)
    (self : Good w (requestOf cfg data) m)
    (won : m.won → ∀ u x q, u ≠ t → (discipline cfg).statuses s u = some x →
      request cfg x.call = some q → q.key = (requestOf cfg data).key → ¬ x.phase.won)
    (held : ∀ {key r}, records w key = some r → r.completed = false →
      key = (requestOf cfg data).key ∧ m.holding ∨
        (∃ r', records s.world key = some r' ∧ r'.completed = false) ∧
          (g.holding → key ≠ (requestOf cfg data).key))
    (drafts : ∀ {id}, m.draft = some id → ∀ u x, u ≠ t →
      (discipline cfg).statuses s u = some x → x.phase.draft ≠ some id) :
    Inv cfg w v (Function.update ((discipline cfg).statuses s) t (some ⟨.create data, m, b⟩)) where
  books := books
  creates := fun hu => by
    obtain ⟨rfl, rfl⟩ | ⟨-, hu⟩ := update_cases hu
    · exact ⟨data, rfl⟩
    · exact inv.creates hu
  good := fun hu hq => by
    obtain ⟨rfl, rfl⟩ | ⟨hne, hu⟩ := update_cases hu
    · cases hq
      exact self
    · exact others _ _ _ hne hu hq (inv.good hu hq)
  unique := fun hu hu' hq hq' hk hw hw' => by
    obtain ⟨rfl, rfl⟩ | ⟨hne, old⟩ := update_cases hu <;>
      obtain ⟨rfl, rfl⟩ | ⟨hne', old'⟩ := update_cases hu'
    · rfl
    · cases hq
      exact absurd hw' (won hw _ _ _ hne' old' hq' hk.symm)
    · cases hq'
      exact absurd hw (won hw' _ _ _ hne old hq hk)
    · exact inv.unique old old' hq hq' hk hw hw'
  held := fun {key r} hr hc => by
    obtain ⟨rfl, hold⟩ | ⟨⟨r', hr', hc'⟩, hne⟩ := held hr hc
    · exact ⟨t, _, _, Function.update_self .., rfl, rfl, hold⟩
    · obtain ⟨u, x, q, hu, hq, rfl, hx⟩ := inv.held hr' hc'
      have hut : u ≠ t := by
        rintro rfl
        obtain rfl := Option.some.inj (ht.symm.trans hu)
        cases hq
        exact hne hx rfl
      exact ⟨u, x, q, by rwa [Function.update_of_ne hut], hq, rfl, hx⟩
  drafts := fun hu hu' hd hd' => by
    obtain ⟨rfl, rfl⟩ | ⟨hne, old⟩ := update_cases hu <;>
      obtain ⟨rfl, rfl⟩ | ⟨hne', old'⟩ := update_cases hu'
    · rfl
    · exact absurd hd' (drafts hd _ _ hne' old')
    · exact absurd hd (drafts hd' _ _ hne old)
    · exact inv.drafts old old' hd hd'
  pending := fun hu hp => by
    obtain ⟨rfl, rfl⟩ | ⟨hne, hu⟩ := update_cases hu
    · exact goes_pending hg hp
    · exact absurd hp (not_pending h inv hne hu)

/-- A step that changes nothing the coordinator or the store knows of. -/
theorem inv_same (same : Same s.world w) (self : Good w (requestOf cfg data) m)
    (won : m.won → g.won) (holding : g.holding → m.holding)
    (draft : ∀ id, m.draft = some id → g.draft = some id) :
    Inv cfg w v
      (Function.update ((discipline cfg).statuses s) t (some ⟨.create data, m, b⟩)) := by
  apply inv_moves inv ht h hg (same.books inv.books)
  · exact fun _ _ _ _ _ _ hx => same.good hx
  · exact self
  · intro hw u x q hne hu hq hk hx
    exact hne (inv.unique hu ht hq rfl hk hx (won hw))
  · intro key r hr hc
    by_cases hk : key = (requestOf cfg data).key ∧ g.holding
    · exact .inl ⟨hk.1, holding hk.2⟩
    · exact .inr ⟨⟨r, same.records key ▸ hr, hc⟩, fun hold hkey => hk ⟨hkey, hold⟩⟩
  · intro id hd u x hne hu hx
    exact hne (inv.drafts hu ht hx (draft id hd))

end Step

end PySwitch.Claim
