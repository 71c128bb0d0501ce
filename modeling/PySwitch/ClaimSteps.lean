import PySwitch.ClaimInvariant

namespace PySwitch.Claim

open Async Program Service MemoryIdempotencyCoordinator

/-- A stage in which a call holds nothing and has been given nothing. -/
theorem good_of_bare {w : World} {q : Request} {g : Stage} (won : ¬ g.won)
    (replaying : ∀ id, g ≠ .replaying id) (replayed : ∀ found, g ≠ .replayed found) : Good w q g where
  held := fun hg => absurd (won_of_holding hg) won
  unkeyed := fun hg => absurd (won_of_holding hg) won
  draft := fun hd => absurd (won_of_holding (holding_of_draft hd)) won
  stored := fun hg => by
    subst hg
    exact absurd trivial won
  completed := fun hg => by
    subst hg
    exact absurd trivial won
  replaying := fun hg => absurd hg (replaying _)
  replayed := fun hg => absurd hg (replayed _)

theorem record_of_won {w : World} {q : Request} {g : Stage} (h : Good w q g) (hg : g.won) :
    ∃ r, records w q.key = some r := by
  cases g with
  | completed p => exact ⟨_, (h.completed rfl).2⟩
  | _ => exact ⟨_, h.held hg⟩

/-- The record of one key is changed, and nothing else but events. -/
structure Recorded (key : RecordKey) (record : Option IdempotencyRecord) (w w' : World) : Prop where
  records : ∀ k, records w' k = if k = key then record else records w k
  events : ∀ k, w.process.idempotency.events k ≠ none → w'.process.idempotency.events k ≠ none
  store : w'.store = w.store
  nextUuid : w'.shared.nextUuid = w.shared.nextUuid

namespace Recorded

variable {key : RecordKey} {record : Option IdempotencyRecord} {w w' : World}

theorem of_update {c : MemoryIdempotencyCoordinator}
    (records : c.records = Function.update w.process.idempotency.records key record)
    (events : ∀ k, w.process.idempotency.events k ≠ none → c.events k ≠ none) :
    Recorded key record w (Effect.setIdempotency w c) where
  records := fun k => by
    show c.records k = _
    rw [records, Function.update_apply]
    rfl
  events := events
  store := rfl
  nextUuid := rfl

theorem stored (h : Recorded key record w w') {q : Request} {p : Payment} (hp : Stored w q p) :
    Stored w' q p :=
  ⟨by rw [h.store]; exact hp.keyed, by rw [h.store]; exact hp.found, hp.fits⟩

theorem good (h : Recorded key record w w') {q : Request} {g : Stage} (hg : Good w q g)
    (other : g.won → q.key ≠ key) : Good w' q g := by
  apply hg.frame
  · intro hw
    rw [h.records, if_neg (other hw)]
  · intro _ hk
    rwa [h.store]
  · intro id _ hn
    rwa [h.store]
  · exact fun p => h.stored
  · exact Nat.le_of_eq h.nextUuid.symm

theorem books (h : Recorded key record w w') (hw : Books w)
    (vacant : record = none → w.store.keys key = none)
    (completed : ∀ r, record = some r → r.completed = true →
      ∃ p, r.paymentId = some p.id ∧ Stored w ⟨key, r.fingerprint⟩ p)
    (awaited : ∀ r, record = some r → r.completed = false →
      w'.process.idempotency.events key ≠ none) : Books w' where
  vacant := fun hr => by
    rw [h.records] at hr
    rw [h.store]
    split at hr
    · rename_i hk
      exact hk ▸ vacant hr
    · exact hw.vacant hr
  completed := fun hr hc => by
    rw [h.records] at hr
    split at hr
    · rename_i hk
      obtain ⟨p, hp, hs⟩ := completed _ hr hc
      exact ⟨p, hp, hk ▸ h.stored hs⟩
    · obtain ⟨p, hp, hs⟩ := hw.completed hr hc
      exact ⟨p, hp, h.stored hs⟩
  awaited := fun hr hc => by
    rw [h.records] at hr
    split at hr
    · rename_i hk
      exact hk ▸ awaited _ hr hc
    · exact h.events _ (hw.awaited hr hc)
  keyed := fun hp => by
    rw [h.store] at hp ⊢
    rw [h.nextUuid]
    exact hw.keyed hp

end Recorded

/-- One payment is stored under its key. -/
structure Saved (p : Payment) (w w' : World) : Prop where
  idempotency : w'.process.idempotency = w.process.idempotency
  payments : w'.store.payments = Function.update w.store.payments p.id (some p)
  keys : w'.store.keys = Function.update w.store.keys p.key (some p.id)
  nextUuid : w'.shared.nextUuid = w.shared.nextUuid

namespace Saved

variable {p : Payment} {w w' : World}

theorem records (h : Saved p w w') (key : RecordKey) : records w' key = records w key := by
  simp only [Claim.records, h.idempotency]

theorem self (h : Saved p w w') {q : Request} (fits : Matches q p) : Stored w' q p where
  keyed := by rw [h.keys, ← fits.key, Function.update_self]
  found := by rw [h.payments, Function.update_self]
  fits := fits

/-- What is stored already stays there. -/
theorem stored (h : Saved p w w') (new : w.store.payments p.id = none)
    (unkeyed : w.store.keys p.key = none) {q : Request} {p' : Payment} (hp : Stored w q p') :
    Stored w' q p' where
  keyed := by
    have hk : q.key ≠ p.key := fun hk => by cases (hk ▸ hp.keyed).symm.trans unkeyed
    rw [h.keys, Function.update_of_ne hk]
    exact hp.keyed
  found := by
    have hid : p'.id ≠ p.id := fun hid => by cases (hid ▸ hp.found).symm.trans new
    rw [h.payments, Function.update_of_ne hid]
    exact hp.found
  fits := hp.fits

theorem good (h : Saved p w w') {q : Request} {g : Stage} (hg : Good w q g)
    (new : w.store.payments p.id = none) (unkeyed : w.store.keys p.key = none)
    (holding : g.holding → q.key ≠ p.key) (draft : g.draft ≠ some p.id) : Good w' q g := by
  apply hg.frame
  · exact fun _ => h.records q.key
  · intro hh hk
    rwa [h.keys, Function.update_of_ne (holding hh)]
  · intro id hd hn
    have hid : id ≠ p.id := fun hid => draft (hid ▸ hd)
    rwa [h.payments, Function.update_of_ne hid]
  · exact fun _ => h.stored new unkeyed
  · exact Nat.le_of_eq h.nextUuid.symm

theorem books (h : Saved p w w') (hw : Books w) (fresh : p.id < w.shared.nextUuid)
    (new : w.store.payments p.id = none) (unkeyed : w.store.keys p.key = none)
    (claimed : ∃ r, Claim.records w p.key = some r ∧ r.completed = false) : Books w' where
  vacant := fun {key} hr => by
    rw [h.records] at hr
    have hk : key ≠ p.key := fun hk => by
      obtain ⟨r, hr', -⟩ := claimed
      cases (hk ▸ hr).symm.trans hr'
    rw [h.keys, Function.update_of_ne hk]
    exact hw.vacant hr
  completed := fun hr hc => by
    rw [h.records] at hr
    obtain ⟨p', hp', hs⟩ := hw.completed hr hc
    exact ⟨p', hp', h.stored new unkeyed hs⟩
  awaited := fun hr hc => by
    rw [h.records] at hr
    rw [h.idempotency]
    exact hw.awaited hr hc
  keyed := fun {id p'} hp => by
    rw [h.nextUuid, h.keys]
    rw [h.payments, Function.update_apply] at hp
    split at hp
    · rename_i hid
      cases hp
      exact ⟨hid.symm, by rw [Function.update_self, hid], hid ▸ fresh⟩
    · obtain ⟨hid, hk, old⟩ := hw.keyed hp
      have hne : p'.key ≠ p.key := fun hne => by cases (hne ▸ hk).symm.trans unkeyed
      exact ⟨hid, by rwa [Function.update_of_ne hne], old⟩

end Saved

/-- Such an effect leads on only when it draws the identifier or ends the provider call. -/
theorem quiet_next (g : Stage) {e : Effect} (r : e.Reply) (he : quiet e) :
    next g e r = g ∨ (g = .owner ∧ e = .host .uuid4) ∨
      ∃ id, g = .drafted id ∧ next g e r = .charged id := by
  unfold next
  split <;> first
    | exact .inl rfl
    | exact .inr (.inl ⟨rfl, rfl⟩)
    | exact .inr (.inr ⟨_, rfl, rfl⟩)
    | exact he.elim

section Step

variable {cfg : Config} {profile : Profile} {s : ServiceState} {l : ServiceLabel} {t : Tid}
  {data : PaymentInput} {g : Stage} {w : World} {b : Bool} {v : Option Tid}
  (inv : Inv cfg s.world s.running ((discipline cfg).statuses s))
  (ht : (discipline cfg).statuses s t = some ⟨.create data, g, false⟩)

include inv ht

theorem good_self : Good s.world (requestOf cfg data) g := inv.good ht rfl

omit ht in
theorem inv_uuid4 {id : Uuid}
    (ht : (discipline cfg).statuses s t = some ⟨.create data, .owner, false⟩)
    (h : Delivered (system cfg profile) s l t (.host .uuid4) (.reply id w))
    (hg : Goes (discipline cfg) t (.create data) (.drafted id) b v) :
    Inv cfg w v
      (Function.update ((discipline cfg).statuses s) t (some ⟨.create data, .drafted id, b⟩)) := by
  have same := quiet_same (e := .host .uuid4) trivial (reply_touches h)
  obtain ⟨rfl, rfl⟩ := uuid4_reply h
  have good := same.good (good_self inv ht)
  have new : s.world.store.payments s.world.shared.nextUuid = none := by
    cases hn : s.world.store.payments s.world.shared.nextUuid with
    | none => rfl
    | some p => exact absurd (inv.books.keyed hn).2.2 (Nat.lt_irrefl _)
  apply inv_moves inv ht h hg (same.books inv.books)
  · exact fun _ _ _ _ _ _ hx => same.good hx
  · exact {
      held := fun _ => good.held trivial
      unkeyed := fun _ _ => good.unkeyed trivial fun _ => nofun
      draft := fun hd => by
        cases hd
        exact ⟨Nat.lt_succ_self _, new⟩
      stored := nofun
      completed := nofun
      replaying := nofun
      replayed := nofun }
  · exact fun _ u x q hne hu hq hk hx => hne (inv.unique hu ht hq rfl hk hx trivial)
  · intro key r hr hc
    by_cases hk : key = (requestOf cfg data).key
    · exact .inl ⟨hk, trivial⟩
    · exact .inr ⟨⟨r, hr, hc⟩, fun _ => hk⟩
  · intro id hd u x hne hu hx
    cases hd
    obtain ⟨data', hcall⟩ := inv.creates hu
    have hq : request cfg x.call = some (requestOf cfg data') := by rw [hcall]; rfl
    exact absurd ((inv.good hu hq).draft hx).1 (Nat.lt_irrefl _)

theorem inv_quiet {e : Effect} {r : e.Reply} (he : quiet e)
    (h : Delivered (system cfg profile) s l t e (.reply r w))
    (hg : Goes (discipline cfg) t (.create data) (next g e r) b v) :
    Inv cfg w v
      (Function.update ((discipline cfg).statuses s) t (some ⟨.create data, next g e r, b⟩)) := by
  have same := quiet_same he (reply_touches h)
  have good := same.good (good_self inv ht)
  obtain hn | ⟨rfl, rfl⟩ | ⟨id, rfl, hn⟩ := quiet_next g r he
  · rw [hn] at hg ⊢
    exact inv_same inv ht h hg same good id id fun _ hd => hd
  · exact inv_uuid4 inv ht h hg
  · rw [hn] at hg ⊢
    refine inv_same inv ht h hg same ?_ (fun _ => trivial) (fun _ => trivial) fun _ hd => hd
    exact {
      held := fun _ => good.held trivial
      unkeyed := fun _ _ => good.unkeyed trivial fun _ => nofun
      draft := good.draft
      stored := nofun
      completed := nofun
      replaying := nofun
      replayed := nofun }

/-- Nobody else has won the key of a call that has won it. -/
theorem alone (hw : g.won) {u : Tid} {x : Status Call Stage} {q : Request} (hu : u ≠ t)
    (hx : (discipline cfg).statuses s u = some x) (hq : request cfg x.call = some q)
    (hk : q.key = (requestOf cfg data).key) : ¬ x.phase.won :=
  fun hxw => hu (inv.unique hx ht hq rfl hk hxw hw)

theorem inv_recorded {e : Effect} {r : e.Reply} {m : Stage} {record : Option IdempotencyRecord}
    (recorded : Recorded (requestOf cfg data).key record s.world w)
    (h : Delivered (system cfg profile) s l t e (.reply r w))
    (hg : Goes (discipline cfg) t (.create data) m b v) (books : Books w)
    (alone : ∀ u x q, u ≠ t → (discipline cfg).statuses s u = some x →
      request cfg x.call = some q → q.key = (requestOf cfg data).key → ¬ x.phase.won)
    (self : Good w (requestOf cfg data) m)
    (held : ∀ r, record = some r → r.completed = false → m.holding)
    (draft : ∀ id, m.draft = some id → g.draft = some id) :
    Inv cfg w v
      (Function.update ((discipline cfg).statuses s) t (some ⟨.create data, m, b⟩)) := by
  apply inv_moves inv ht h hg books
  · exact fun u x q hne hu hq hx => recorded.good hx fun hw hk => alone u x q hne hu hq hk hw
  · exact self
  · exact fun _ => alone
  · intro key r hr hc
    rw [recorded.records] at hr
    split at hr
    · rename_i hk
      exact .inl ⟨hk, held r hr hc⟩
    · rename_i hk
      exact .inr ⟨⟨r, hr, hc⟩, fun _ => hk⟩
  · intro id hd u x hne hu hx
    exact hne (inv.drafts hu ht hx (draft id hd))

theorem inv_acquire {key : RecordKey} {fingerprint : String} {r : Except Exn IdempotencyDecision}
    (memory : profile.coordinator = .memory)
    (hok : ok (requestOf cfg data) g (.coordinator (.acquire key fingerprint)))
    (h : Delivered (system cfg profile) s l t (.coordinator (.acquire key fingerprint))
      (.reply r w))
    (hg : Goes (discipline cfg) t (.create data)
      (next g (.coordinator (.acquire key fingerprint)) r) b v) :
    Inv cfg w v (Function.update ((discipline cfg).statuses s) t
      (some ⟨.create data, next g (.coordinator (.acquire key fingerprint)) r, b⟩)) := by
  obtain ⟨c, decides, rfl⟩ := acquire_direct_reply memory h
  have moves (unmoved : s.world.process.idempotency.Unmoved c) :
      Same s.world (Effect.setIdempotency s.world c) := ⟨unmoved, rfl, rfl, Nat.le_refl _⟩
  cases g with
  | fresh =>
    obtain ⟨rfl, rfl⟩ := hok
    cases decides with
    | @claimed _ event vacant records events =>
      have recorded : Recorded (requestOf cfg data).key
          (some ⟨(requestOf cfg data).fingerprint, none, false⟩) s.world
          (Effect.setIdempotency s.world c) := by
        apply Recorded.of_update records
        intro k hk
        rw [events, Function.update_apply]
        split
        · exact Option.some_ne_none _
        · exact hk
      have alone : ∀ u x q, u ≠ t → (discipline cfg).statuses s u = some x →
          request cfg x.call = some q → q.key = (requestOf cfg data).key → ¬ x.phase.won := by
        intro u x q _ hu hq hk hw
        obtain ⟨r, hr⟩ := record_of_won (inv.good hu hq) hw
        rw [hk] at hr
        cases vacant.symm.trans hr
      have awaited : c.events (requestOf cfg data).key ≠ none := by
        rw [events, Function.update_self]
        exact Option.some_ne_none _
      refine inv_recorded (m := .owner) inv ht recorded h hg
        (recorded.books inv.books nofun (by rintro r ⟨⟩ ⟨⟩) fun r _ _ => awaited)
        alone ?_ (fun _ _ _ => trivial) nofun
      exact {
        held := fun _ => by rw [recorded.records, if_pos rfl]
        unkeyed := fun _ _ => inv.books.vacant vacant
        draft := nofun
        stored := nofun
        completed := nofun
        replaying := nofun
        replayed := nofun }
    | conflict found differs unmoved =>
      exact inv_same (m := .refused) inv ht h hg (moves unmoved)
        (good_of_bare False.elim (fun _ => nofun) fun _ => nofun)
        False.elim False.elim nofun
    | @completed _ record found same done unmoved =>
      obtain ⟨p, hp, stored⟩ := inv.books.completed found done
      rw [same] at stored
      rw [hp] at hg h ⊢
      refine inv_same (m := .replaying p.id) inv ht h hg (moves unmoved) ?_ False.elim
        False.elim nofun
      exact {
        held := False.elim
        unkeyed := False.elim
        draft := nofun
        stored := nofun
        completed := nofun
        replaying := fun hr => by
          cases hr
          exact ⟨p, rfl, (moves unmoved).stored stored⟩
        replayed := nofun }
    | lost found pending event => exact absurd event (inv.books.awaited found pending)
    | cancelled unmoved =>
      exact inv_same (m := .left) inv ht h hg (moves unmoved)
        (good_of_bare False.elim (fun _ => nofun) fun _ => nofun)
        False.elim False.elim nofun
  | _ => exact hok.elim

theorem inv_complete {key : RecordKey} {fingerprint : String} {paymentId : Uuid}
    {r : Except Exn Unit} (memory : profile.coordinator = .memory)
    (hok : ok (requestOf cfg data) g (.coordinator (.complete key fingerprint paymentId)))
    (h : Delivered (system cfg profile) s l t
      (.coordinator (.complete key fingerprint paymentId)) (.reply r w))
    (hg : Goes (discipline cfg) t (.create data)
      (next g (.coordinator (.complete key fingerprint paymentId)) r) b v) :
    Inv cfg w v (Function.update ((discipline cfg).statuses s) t
      (some ⟨.create data, next g (.coordinator (.complete key fingerprint paymentId)) r, b⟩)) := by
  obtain ⟨-, rfl⟩ := complete_direct memory h
  cases g with
  | stored p =>
    obtain ⟨rfl, rfl, rfl⟩ := hok
    have good := good_self inv ht
    have found : s.world.process.idempotency.records (requestOf cfg data).key =
        some ⟨(requestOf cfg data).fingerprint, none, false⟩ := good.held trivial
    have completes := complete_of_claimed found p.id
    have recorded : Recorded (requestOf cfg data).key
        (some ⟨(requestOf cfg data).fingerprint, some p.id, true⟩) s.world
        (Effect.setIdempotency s.world (s.world.process.idempotency.complete
          (requestOf cfg data).key (requestOf cfg data).fingerprint p.id).2) :=
      .of_update completes.2.1 fun k hk => by rwa [completes.2.2]
    have stored := good.stored rfl
    refine inv_recorded (m := .completed p) inv ht recorded h hg
      (recorded.books inv.books nofun ?_ (by rintro r ⟨⟩ ⟨⟩))
      (fun u x q => alone inv ht trivial) ?_ (by rintro r ⟨⟩ ⟨⟩) nofun
    · rintro r ⟨⟩ -
      exact ⟨p, rfl, ⟨stored.keyed, stored.found, ⟨stored.fits.key, stored.fits.fingerprint⟩⟩⟩
    · exact {
        held := False.elim
        unkeyed := False.elim
        draft := nofun
        stored := nofun
        completed := fun hc => by
          cases hc
          exact ⟨recorded.stored stored, by rw [recorded.records, if_pos rfl]⟩
        replaying := nofun
        replayed := nofun }
  | _ => exact hok.elim

theorem inv_abort {key : RecordKey} {fingerprint : String} {r : Except Exn Unit}
    (memory : profile.coordinator = .memory)
    (hok : ok (requestOf cfg data) g (.coordinator (.abort key fingerprint)))
    (h : Delivered (system cfg profile) s l t (.coordinator (.abort key fingerprint))
      (.reply r w))
    (hg : Goes (discipline cfg) t (.create data)
      (next g (.coordinator (.abort key fingerprint)) r) b v) :
    Inv cfg w v (Function.update ((discipline cfg).statuses s) t
      (some ⟨.create data, next g (.coordinator (.abort key fingerprint)) r, b⟩)) := by
  obtain ⟨rfl, rfl⟩ := abort_direct memory h
  cases g with
  | drafted id =>
    obtain ⟨rfl, rfl⟩ := hok
    have good := good_self inv ht
    have found : s.world.process.idempotency.records (requestOf cfg data).key =
        some ⟨(requestOf cfg data).fingerprint, none, false⟩ := good.held trivial
    have aborts := abort_of_claimed found
    have recorded : Recorded (requestOf cfg data).key none s.world
        (Effect.setIdempotency s.world (s.world.process.idempotency.abort
          (requestOf cfg data).key (requestOf cfg data).fingerprint)) :=
      .of_update aborts.1 fun k hk => by rwa [aborts.2]
    exact inv_recorded (m := .released) inv ht recorded h hg
      (recorded.books inv.books (fun _ => good.unkeyed trivial fun _ => nofun) nofun nofun)
      (fun u x q => alone inv ht trivial) (good_of_bare False.elim (fun _ => nofun) fun _ => nofun)
      nofun nofun
  | _ => exact hok.elim

variable (storage : profile.storage = .memory)

include storage

theorem inv_get {paymentId : Uuid} {r : Except Exn (Option Payment)}
    (hok : ok (requestOf cfg data) g (.store (.get paymentId)))
    (h : Delivered (system cfg profile) s l t (.store (.get paymentId)) (.reply r w))
    (hg : Goes (discipline cfg) t (.create data) (next g (.store (.get paymentId)) r) b v) :
    Inv cfg w v (Function.update ((discipline cfg).statuses s) t
      (some ⟨.create data, next g (.store (.get paymentId)) r, b⟩)) := by
  obtain ⟨hr, rfl⟩ := store_reply storage h
  cases g with
  | replaying id =>
    obtain rfl : paymentId = id := hok
    obtain ⟨p, rfl, stored⟩ := (good_self inv ht).replaying rfl
    obtain rfl : r = .ok (some p) := hr.trans (congrArg Except.ok stored.found)
    refine inv_same (m := .replayed (some p)) inv ht h hg ⟨⟨rfl, rfl⟩, rfl, rfl, Nat.le_refl _⟩ ?_
      False.elim False.elim nofun
    exact {
      held := False.elim
      unkeyed := False.elim
      draft := nofun
      stored := nofun
      completed := nofun
      replaying := nofun
      replayed := fun hf => by
        cases hf
        exact ⟨p, rfl, stored.keyed, stored.found, stored.fits⟩ }
  | _ => exact hok.elim

/-- Saving the payment of a draft stores it under the key of the call. -/
theorem inv_save {e : StoreEffect} {p : Payment} {r : e.Reply}
    (saves : (s.world.store.commit e).payments =
      Function.update s.world.store.payments p.id (some p))
    (keyed : (s.world.store.commit e).keys = Function.update s.world.store.keys p.key (some p.id))
    (hok : g.draft = some p.id ∧ Matches (requestOf cfg data) p)
    (h : Delivered (system cfg profile) s l t (.store e) (.reply r w))
    (hg : Goes (discipline cfg) t (.create data) (.stored p) b v) :
    Inv cfg w v
      (Function.update ((discipline cfg).statuses s) t (some ⟨.create data, .stored p, b⟩)) := by
  obtain ⟨-, rfl⟩ := store_reply storage h
  obtain ⟨hd, fits⟩ := hok
  have good := good_self inv ht
  have holds := holding_of_draft hd
  have saved : Saved p s.world (Effect.setStore s.world (s.world.store.commit e)) :=
    ⟨rfl, saves, keyed, rfl⟩
  have new := (good.draft hd).2
  have unkeyed : s.world.store.keys p.key = none := by
    rw [fits.key]
    refine good.unkeyed holds ?_
    rintro q rfl
    cases hd
  have stored := saved.self fits
  apply inv_moves inv ht h hg
  · exact saved.books inv.books (good.draft hd).1 new unkeyed
      (by rw [fits.key]; exact ⟨_, good.held holds, rfl⟩)
  · intro u x q hne hu hq hx
    refine saved.good hx new unkeyed (fun hh hk => ?_) fun hx' => ?_
    · exact alone inv ht (won_of_holding holds) hne hu hq (hk.trans fits.key) (won_of_holding hh)
    · exact hne (inv.drafts hu ht hx' hd)
  · exact {
      held := fun _ => good.held holds
      unkeyed := fun _ hs => absurd rfl (hs p)
      draft := nofun
      stored := fun hs => by
        cases hs
        exact stored
      completed := nofun
      replaying := nofun
      replayed := nofun }
  · exact fun _ u x q => alone inv ht (won_of_holding holds)
  · intro key r hr hc
    by_cases hk : key = (requestOf cfg data).key
    · exact .inl ⟨hk, trivial⟩
    · exact .inr ⟨⟨r, hr, hc⟩, fun _ => hk⟩
  · exact nofun

theorem inv_store {e : StoreEffect} {r : e.Reply} (hok : ok (requestOf cfg data) g (.store e))
    (h : Delivered (system cfg profile) s l t (.store e) (.reply r w))
    (hg : Goes (discipline cfg) t (.create data) (next g (.store e) r) b v) :
    Inv cfg w v
      (Function.update ((discipline cfg).statuses s) t (some ⟨.create data, next g (.store e) r, b⟩)) := by
  have reads {m : Stage} (hn : next g (.store e) r = m) (hm : m = g)
      (same : Same s.world w) : Inv cfg w v (Function.update ((discipline cfg).statuses s) t
        (some ⟨.create data, next g (.store e) r, b⟩)) := by
    subst hm
    rw [hn] at hg ⊢
    exact inv_same inv ht h hg same (same.good (good_self inv ht)) id id fun _ hd => hd
  cases e with
  | get paymentId => exact inv_get inv ht storage hok h hg
  | getByIdempotency key =>
    obtain ⟨-, rfl⟩ := store_reply storage h
    exact reads (by cases g <;> rfl) rfl ⟨⟨rfl, rfl⟩, rfl, rfl, Nat.le_refl _⟩
  | append events =>
    obtain ⟨-, rfl⟩ := store_reply storage h
    exact reads (by cases g <;> rfl) rfl ⟨⟨rfl, rfl⟩, rfl, rfl, Nat.le_refl _⟩
  | reread p => cases g <;> exact hok.elim
  | save p =>
    have fits : g.draft = some p.id ∧ Matches (requestOf cfg data) p := by
      cases g <;> exact hok
    have hn : next g (.store (.save p)) r = .stored p := by
      cases g <;> first | rfl | cases fits.1
    rw [hn] at hg ⊢
    exact inv_save inv ht storage rfl rfl fits h hg
  | saveWithEvents p events =>
    have fits : g.draft = some p.id ∧ Matches (requestOf cfg data) p := by
      cases g <;> exact hok
    have hn : next g (.store (.saveWithEvents p events)) r = .stored p := by
      cases g <;> first | rfl | cases fits.1
    rw [hn] at hg ⊢
    exact inv_save inv ht storage rfl rfl fits h hg

variable (memory : profile.coordinator = .memory)

include memory

theorem inv_reply {e : Effect} {r : e.Reply} (hok : ok (requestOf cfg data) g e)
    (h : Delivered (system cfg profile) s l t e (.reply r w))
    (hg : Goes (discipline cfg) t (.create data) (next g e r) b v) :
    Inv cfg w v
      (Function.update ((discipline cfg).statuses s) t (some ⟨.create data, next g e r, b⟩)) := by
  cases e with
  | coordinator e =>
    cases e with
    | acquire key fingerprint => exact inv_acquire inv ht memory hok h hg
    | complete key fingerprint paymentId => exact inv_complete inv ht memory hok h hg
    | abort key fingerprint => exact inv_abort inv ht memory hok h hg
  | store e => exact inv_store inv ht storage hok h hg
  | _ => exact inv_quiet inv ht trivial h hg

end Step

end PySwitch.Claim
