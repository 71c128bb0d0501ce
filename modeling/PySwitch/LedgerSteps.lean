import PySwitch.LedgerInvariant

namespace PySwitch.Ledger

open Async Program Service

/-- One payment is stored, and nothing else is changed. -/
structure Saved (p : Payment) (w w' : World) : Prop where
  locks : w'.process.refundLocks = w.process.refundLocks
  payments : w'.store.payments = Function.update w.store.payments p.id (some p)
  nextUuid : w'.shared.nextUuid = w.shared.nextUuid
  log : w'.log = w.log

namespace Saved

variable {p : Payment} {w w' : World}

theorem good (h : Saved p w w') {t : Tid} {g : Stage} (hg : Good w t g)
    (payment : ∀ q, g.payment = some q → q.id ≠ p.id)
    (draft : ∀ amount, g ≠ .draft p.id amount) : Good w' t g := by
  refine hg.frame (fun id => ?_) ?_ ?_ (by rw [h.nextUuid])
  · rw [h.locks]
    exact fun ht => ht
  · intro q hq hs
    rwa [h.payments, Function.update_of_ne (payment q hq)]
  · intro id amount hd hs
    have hid : id ≠ p.id := by
      rintro rfl
      exact draft amount hd
    rwa [h.payments, Function.update_of_ne hid]

theorem stored (h : Saved p w w') {id : Uuid} {q : Payment} (hq : w'.store.payments id = some q) :
    id = p.id ∧ q = p ∨ w.store.payments id = some q := by
  rw [h.payments, Function.update_apply] at hq
  split at hq
  · rename_i hid
    exact .inl ⟨hid, (Option.some.inj hq).symm⟩
  · exact .inr hq

theorem books (h : Saved p w w') (hw : Books w) (fresh : p.id < w.shared.nextUuid)
    (consistent : Consistent p) : Books w' where
  locks := fun id => by rw [h.locks]; exact hw.locks id
  fresh := fun hq => by
    rw [h.nextUuid]
    obtain ⟨rfl, -⟩ | hq := h.stored hq
    · exact fresh
    · exact hw.fresh hq
  identified := fun hq => by
    obtain ⟨rfl, rfl⟩ | hq := h.stored hq
    · rfl
    · exact hw.identified hq
  consistent := fun hq => by
    obtain ⟨-, rfl⟩ | hq := h.stored hq
    · exact consistent
    · exact hw.consistent hq

theorem recorded (h : Saved p w w') (id : Uuid) :
    recorded w' id = if id = p.id then p.refundedAmount else recorded w id := by
  by_cases hid : id = p.id <;> simp [Ledger.recorded, h.payments, hid]

end Saved

theorem same_put {w : World} {paymentId : Uuid} {lock : Semaphore}
    (admits : (w.process.refundLocks paymentId).Admits lock) :
    Same w (Effect.setProcess w (RefundLockEffect.put w.process paymentId lock)) where
  locks := fun id => by
    by_cases hid : id = paymentId
    · subst id
      simpa [Effect.setProcess, RefundLockEffect.put] using admits
    · simpa [Effect.setProcess, RefundLockEffect.put, hid] using .refl _
  payments := rfl
  nextUuid := rfl
  returned := fun _ => rfl

theorem ok_save {profile : Profile} {g : Stage} {p : Payment}
    (h : ok profile g (.store (.save p))) : g.saveable p := by
  cases g <;> exact h

theorem ok_saveWithEvents {profile : Profile} {g : Stage} {p : Payment}
    {events : List EventEnvelope} (h : ok profile g (.store (.saveWithEvents p events))) :
    g.saveable p := by
  cases g <;> exact h

theorem pending_never_waits {cfg : Config} {profile : Profile} {s : ServiceState}
    {l : ServiceLabel} {t : Tid} {e : Effect} {w : World} {g : Stage}
    (memory : profile.storage = .memory) (hg : g.pending) (hok : ok profile g e) :
    ¬ Delivered (system cfg profile) s l t e (.wait w) := by
  cases g with
  | settling q amount =>
    cases e with
    | host e => cases e <;> first | exact now_never_waits | exact uuid4_never_waits | exact hok.elim
    | store e => exact store_never_waits memory
    | _ => exact hok.elim
  | applying q amount =>
    cases e with
    | host e => cases e <;> first | exact now_never_waits | exact uuid4_never_waits | exact hok.elim
    | store e => exact store_never_waits memory
    | _ => exact hok.elim
  | _ => exact hg.elim

theorem quiet_or (e : Effect) : quiet e ∨ e = .host .uuid4 ∨ (∃ a, e = .refundLock a) ∨
    (∃ p id amount, e = .provider (.startRefund p id amount)) ∨
    (∃ p id amount, e = .provider (.finishRefund p id amount)) ∨ ∃ a, e = .store a := by
  cases e with
  | host e => cases e <;> simp [quiet]
  | provider e => cases e <;> simp [quiet]
  | _ => simp [quiet]

section Step

variable {cfg : Config} {profile : Profile} {s : ServiceState} {l : ServiceLabel} {t : Tid}
  {c : Call} {g : Stage} {w : World} {b : Bool} {v : Option Tid}
  (inv : Inv s.world s.running ((discipline profile).statuses s))
  (ht : (discipline profile).statuses s t = some ⟨c, g, false⟩)

include inv ht

theorem inv_uuid4 {id : Uuid}
    (h : Delivered (system cfg profile) s l t (.host .uuid4) (.reply id w))
    (hg : Goes (discipline profile) t c (next g (.host .uuid4) id) b v) :
    Inv w v (Function.update ((discipline profile).statuses s) t
      (some ⟨c, next g (.host .uuid4) id, b⟩)) := by
  obtain ⟨rfl, rfl⟩ := uuid4_reply h
  have frame {u : Tid} {g : Stage} (hu : Good s.world u g) :
      Good { s.world with shared.nextUuid := s.world.shared.nextUuid + 1 } u g :=
    hu.frame (fun _ h => h) (fun _ _ h => h) (fun _ _ _ h => h) (Nat.le_succ _)
  have books : Books { s.world with shared.nextUuid := s.world.shared.nextUuid + 1 } :=
    { inv.books with fresh := fun hp => Nat.lt_succ_of_lt (inv.books.fresh hp) }
  have new : s.world.store.payments s.world.shared.nextUuid = none := by
    cases hn : s.world.store.payments s.world.shared.nextUuid with
    | none => rfl
    | some p => exact absurd (inv.books.fresh hn) (Nat.lt_irrefl _)
  have self := frame (inv.good ht)
  cases g with
  | ordered amount =>
    refine inv_moves inv ht h hg books (fun _ _ _ _ => frame) ?_ ?_ fun id hb => hb
    · exact {
        lock := nofun
        payment := nofun
        refunding := nofun
        draft := fun hd => by
          cases hd
          exact ⟨Nat.lt_succ_self _, new, (inv.good ht).ordered rfl⟩
        ordered := nofun }
    · intro id amount' hd' u x amount _ hu hd
      cases hd'
      exact absurd ((inv.good hu).draft hd).1 (Nat.lt_irrefl _)
  | _ =>
    refine inv_moves inv ht h hg books (fun _ _ _ _ => frame) self ?_ fun id hb => hb
    intro id amount' hd' u x amount hne hu hd
    exact hne (inv.drafts hu ht hd hd')

theorem inv_acquire {paymentId : Uuid} {r : Except Exn Unit} (hok : ok profile g (.refundLock (.acquire paymentId)))
    (h : Delivered (system cfg profile) s l t (.refundLock (.acquire paymentId)) (.reply r w))
    (hg : Goes (discipline profile) t c (next g (.refundLock (.acquire paymentId)) r) b v) :
    Inv w v (Function.update ((discipline profile).statuses s) t
      (some ⟨c, next g (.refundLock (.acquire paymentId)) r, b⟩)) := by
  obtain ⟨lock, ⟨admits, holds⟩, rfl⟩ := acquire_lock_reply h
  have same := same_put admits
  cases g with
  | queued =>
    cases r with
    | error x => exact inv_same inv ht h hg same (same.good (inv.good ht)) nofun fun _ => rfl
    | ok =>
      refine inv_same inv ht h hg same ?_ nofun fun _ => rfl
      exact {
        lock := fun hl => by
          cases hl
          simpa [Effect.setProcess, RefundLockEffect.put] using holds rfl
        payment := nofun
        refunding := nofun
        draft := nofun
        ordered := nofun }
  | _ => exact hok.elim

theorem inv_release {paymentId : Uuid} {r : Unit} (hok : ok profile g (.refundLock (.release paymentId)))
    (h : Delivered (system cfg profile) s l t (.refundLock (.release paymentId)) (.reply r w))
    (hg : Goes (discipline profile) t c (next g (.refundLock (.release paymentId)) r) b v) :
    Inv w v (Function.update ((discipline profile).statuses s) t
      (some ⟨c, next g (.refundLock (.release paymentId)) r, b⟩)) := by
  obtain rfl := release_lock_reply h
  have freed := Semaphore.release_holders (s.world.process.refundLocks paymentId) t
  have books : Books (Effect.setProcess s.world (RefundLockEffect.put s.world.process paymentId
      ((s.world.process.refundLocks paymentId).release t))) := { inv.books with
    locks := fun id => by
      by_cases hid : id = paymentId
      · subst id
        simpa [Effect.setProcess, RefundLockEffect.put] using
          freed.1.trans (inv.books.locks paymentId)
      · simpa [Effect.setProcess, RefundLockEffect.put, hid] using inv.books.locks id }
  have others {u : Tid} {x : Stage} (hne : u ≠ t) (hu : Good s.world u x) :
      Good (Effect.setProcess s.world (RefundLockEffect.put s.world.process paymentId
        ((s.world.process.refundLocks paymentId).release t))) u x := by
    refine hu.frame (fun id hl => ?_) (fun _ _ h => h) (fun _ _ _ h => h) (Nat.le_refl _)
    by_cases hid : id = paymentId
    · subst id
      have : u ∈ ((s.world.process.refundLocks paymentId).release t).holders := by
        rw [freed.2]
        exact (List.mem_erase_of_ne hne).mpr hl
      simpa [Effect.setProcess, RefundLockEffect.put] using this
    · simpa [Effect.setProcess, RefundLockEffect.put, hid] using hl
  have unlocked (refunded : Bool) (hg : Goes (discipline profile) t c (.unlocked refunded) b v)
      (due : ∀ id, g.due id = 0) :
      Inv (Effect.setProcess s.world (RefundLockEffect.put s.world.process paymentId
        ((s.world.process.refundLocks paymentId).release t))) v
        (Function.update ((discipline profile).statuses s) t (some ⟨c, .unlocked refunded, b⟩)) := by
    refine inv_moves inv ht h hg books (fun _ _ hne _ => others hne)
      ⟨nofun, nofun, nofun, nofun, nofun⟩ nofun fun id hb => ?_
    rw [due] at hb
    exact hb
  cases g with
  | locked => exact unlocked false hg fun _ => rfl
  | loaded => exact unlocked false hg fun _ => rfl
  | settled => exact unlocked true hg fun _ => rfl
  | _ => cases hok

theorem inv_startRefund {p : Provider} {paymentId : Uuid} {amount : ℤ} {r : Unit}
    (hok : ok profile g (.provider (.startRefund p paymentId amount)))
    (h : Delivered (system cfg profile) s l t (.provider (.startRefund p paymentId amount))
      (.reply r w))
    (hg : Goes (discipline profile) t c (next g (.provider (.startRefund p paymentId amount)) r)
      b v) :
    Inv w v (Function.update ((discipline profile).statuses s) t
      (some ⟨c, next g (.provider (.startRefund p paymentId amount)) r, b⟩)) := by
  obtain rfl := startRefund_reply h
  cases g with
  | loaded q =>
    obtain ⟨rfl, refunding⟩ := hok
    have good := inv.good ht
    refine inv_same inv ht h hg (.refl _) ?_ nofun fun _ => rfl
    exact {
      lock := good.lock
      payment := good.payment
      refunding := fun hq => by cases hq; exact refunding
      draft := nofun
      ordered := nofun }
  | _ => exact hok.elim

theorem inv_finishRefund {p : Provider} {paymentId : Uuid} {amount : ℤ}
    {r : Except Exn ProviderPaymentResult}
    (hok : ok profile g (.provider (.finishRefund p paymentId amount)))
    (h : Delivered (system cfg profile) s l t (.provider (.finishRefund p paymentId amount))
      (.reply r w))
    (hg : Goes (discipline profile) t c (next g (.provider (.finishRefund p paymentId amount)) r)
      b v) :
    Inv w v (Function.update ((discipline profile).statuses s) t
      (some ⟨c, next g (.provider (.finishRefund p paymentId amount)) r, b⟩)) := by
  obtain ⟨-, rfl⟩ := finishRefund_reply h
  cases g with
  | awaiting q amount' =>
    obtain ⟨rfl, rfl⟩ := hok
    have good := inv.good ht
    have frame {u : Tid} {x : Stage} (hu : Good s.world u x) :
        Good (s.world.note (.refundEnded t p q.id amount r)) u x :=
      hu.frame (fun _ h => h) (fun _ _ h => h) (fun _ _ _ h => h) (Nat.le_refl _)
    have books : Books (s.world.note (.refundEnded t p q.id amount r)) :=
      ⟨inv.books.locks, inv.books.fresh, inv.books.identified, inv.books.consistent⟩
    cases r with
    | error x =>
      refine inv_moves inv ht h hg books (fun _ _ _ _ => frame) ?_ nofun fun id hb => hb
      have good := frame good
      exact ⟨good.lock, good.payment, nofun, nofun, nofun⟩
    | ok result =>
      refine inv_moves inv ht h hg books (fun _ _ _ _ => frame) ?_ nofun fun id hb => ?_
      · have good := frame good
        exact ⟨good.lock, good.payment, good.refunding, nofun, nofun⟩
      · have hb : returned id s.world.log = recorded s.world id + 0 := hb
        show (if q.id = id then amount else 0) + returned id s.world.log =
          recorded s.world id + (if q.id = id then amount else 0)
        omega
  | _ => exact hok.elim

omit inv ht in
theorem same_setStore {m : InMemoryPaymentStore} (hm : m.payments = s.world.store.payments) :
    Same s.world (Effect.setStore s.world m) := .of_eq rfl hm rfl fun _ => rfl

variable (memory : profile.storage = .memory)

include memory

/-- Reading the store and appending to the outbox leave the payments alone. -/
theorem inv_read {e : StoreEffect} {r : e.Reply} {m : Stage}
    (reads : (s.world.store.commit e).payments = s.world.store.payments)
    (h : Delivered (system cfg profile) s l t (.store e) (.reply r w))
    (self : Good s.world t m)
    (draft : ∀ id amount, m = .draft id amount → g = .draft id amount)
    (due : ∀ id, m.due id = g.due id) (hg : Goes (discipline profile) t c m b v) :
    Inv w v (Function.update ((discipline profile).statuses s) t (some ⟨c, m, b⟩)) := by
  obtain ⟨-, rfl⟩ := store_reply memory h
  have same := same_setStore reads
  exact inv_same inv ht h hg same (same.good self) draft due

theorem inv_get {paymentId : Uuid} {r : Except Exn (Option Payment)}
    (hok : ok profile g (.store (.get paymentId)))
    (h : Delivered (system cfg profile) s l t (.store (.get paymentId)) (.reply r w))
    (hg : Goes (discipline profile) t c (next g (.store (.get paymentId)) r) b v) :
    Inv w v (Function.update ((discipline profile).statuses s) t
      (some ⟨c, next g (.store (.get paymentId)) r, b⟩)) := by
  obtain ⟨hr, -⟩ := store_reply memory h
  have good := inv.good ht
  cases g with
  | locked id =>
    obtain rfl : paymentId = id := hok
    cases found : s.world.store.payments paymentId with
    | none =>
      obtain rfl : r = .ok none := hr.trans (congrArg Except.ok found)
      exact inv_read inv ht memory rfl h good nofun (fun _ => rfl) hg
    | some p =>
      obtain rfl : r = .ok (some p) := hr.trans (congrArg Except.ok found)
      obtain rfl := inv.books.identified found
      refine inv_read (m := .loaded p) inv ht memory rfl h ?_ nofun (fun _ => rfl) hg
      exact {
        lock := good.lock
        payment := fun hp => by cases hp; exact found
        refunding := nofun
        draft := nofun
        ordered := nofun }
  | _ => exact inv_read inv ht memory rfl h good (fun _ _ hd => hd) (fun _ => rfl) hg

theorem inv_reread {p q : Payment} (hok : ok profile g (.store (.reread p)))
    (h : Delivered (system cfg profile) s l t (.store (.reread p)) (.reply q w))
    (hg : Goes (discipline profile) t c (next g (.store (.reread p)) q) b v) :
    Inv w v (Function.update ((discipline profile).statuses s) t
      (some ⟨c, next g (.store (.reread p)) q, b⟩)) := by
  have good := inv.good ht
  cases g with
  | settling p' amount =>
    exact inv_read (m := .applying p' amount) inv ht memory rfl h
      ⟨good.lock, good.payment, good.refunding, nofun, nofun⟩ nofun (fun _ => rfl) hg
  | _ => exact hok.elim

theorem inv_append {events : List EventEnvelope} {r : Except Exn Unit}
    (h : Delivered (system cfg profile) s l t (.store (.append events)) (.reply r w))
    (hg : Goes (discipline profile) t c (next g (.store (.append events)) r) b v) :
    Inv w v (Function.update ((discipline profile).statuses s) t
      (some ⟨c, next g (.store (.append events)) r, b⟩)) := by
  have hn : next g (.store (.append events)) r = g := by cases g <;> rfl
  rw [hn] at hg ⊢
  exact inv_read inv ht memory rfl h (inv.good ht) (fun _ _ hd => hd) (fun _ => rfl) hg

/-- A payment that is saved for the first time, or one whose refund is recorded. -/
theorem inv_save {e : StoreEffect} {p : Payment} {r : e.Reply} {g' : Stage}
    (saves : (s.world.store.commit e).payments =
      Function.update s.world.store.payments p.id (some p))
    (hok : g.saveable p)
    (h : Delivered (system cfg profile) s l t (.store e) (.reply r w))
    (hn : (∃ id amount, g = .draft id amount ∧ g' = .outside) ∨
      ∃ q amount, g = .applying q amount ∧ g' = .settled q.id)
    (hg : Goes (discipline profile) t c g' b v) :
    Inv w v (Function.update ((discipline profile).statuses s) t (some ⟨c, g', b⟩)) := by
  obtain ⟨-, rfl⟩ := store_reply memory h
  have saved : Saved p s.world (Effect.setStore s.world (s.world.store.commit e)) :=
    ⟨rfl, saves, rfl, rfl⟩
  have good := inv.good ht
  obtain ⟨id, amount, rfl, rfl⟩ | ⟨q, amount, rfl, rfl⟩ := hn
  · obtain ⟨unrefunded, final⟩ := hok
    obtain ⟨fresh, new, positive⟩ := good.draft rfl
    obtain rfl := unrefunded.id_eq
    refine inv_moves inv ht h hg
      (saved.books inv.books fresh (unrefunded.consistent positive final)) ?_
      good_outside (fun drafted => by cases drafted) ?_
    · intro u x hne hu hx
      refine saved.good hx (fun q hq hid => ?_) fun amount' hd => hne (inv.drafts hu ht hd rfl)
      have stored := hx.payment hq
      rw [hid, new] at stored
      cases stored
    · intro id hb
      rw [saved.recorded]
      split
      · rename_i hid
        subst hid
        have zero : recorded s.world p.id = 0 := by simp only [recorded, new]
        rw [zero] at hb
        rw [unrefunded.refundedAmount_eq]
        exact hb
      · exact hb
  · obtain ⟨refund, rfl, rfl⟩ := hok
    have stored := good.payment rfl
    refine inv_moves inv ht h hg (saved.books inv.books (inv.books.fresh stored)
      ((inv.books.consistent stored).applyRefund (good.refunding rfl))) ?_
      (good_settled good.lock)
      (fun drafted => by cases drafted) ?_
    · intro u x hne hu hx
      refine saved.good hx (fun q' hq hid => ?_) fun amount hd => ?_
      · have hl := hx.lock (Stage.lock_of_payment hq)
        rw [hid] at hl
        exact hne (Semaphore.holder_unique (inv.books.locks q.id) hl (good.lock rfl))
      · have new := (hx.draft hd).2.1
        cases stored.symm.trans new
    · intro id hb
      have due : Stage.due (.applying q refund.amount) id =
        if q.id = id then refund.amount else 0 := rfl
      rw [due] at hb
      rw [saved.recorded]
      split
      · rename_i hid
        obtain rfl : id = q.id := hid
        have was : recorded s.world q.id = q.refundedAmount := by simp only [recorded, stored]
        rw [if_pos rfl, was] at hb
        show returned q.id s.world.log = q.refundedAmount + refund.amount + 0
        omega
      · rename_i hid
        rw [if_neg (fun hq => hid hq.symm)] at hb
        exact hb

theorem inv_store {e : StoreEffect} {r : e.Reply} (hok : ok profile g (.store e))
    (h : Delivered (system cfg profile) s l t (.store e) (.reply r w))
    (hg : Goes (discipline profile) t c (next g (.store e) r) b v) :
    Inv w v (Function.update ((discipline profile).statuses s) t
      (some ⟨c, next g (.store e) r, b⟩)) := by
  cases e with
  | get paymentId => exact inv_get inv ht memory hok h hg
  | getByIdempotency key =>
    have hn : next g (.store (.getByIdempotency key)) r = g := by cases g <;> rfl
    rw [hn] at hg ⊢
    exact inv_read inv ht memory rfl h (inv.good ht) (fun _ _ hd => hd) (fun _ => rfl) hg
  | save p =>
    refine inv_save inv ht memory rfl (ok_save hok) h ?_ hg
    cases g with
    | draft id amount => exact .inl ⟨id, amount, rfl, rfl⟩
    | applying q amount => exact .inr ⟨q, amount, rfl, rfl⟩
    | _ => exact (ok_save hok).elim
  | saveWithEvents p events =>
    refine inv_save inv ht memory rfl (ok_saveWithEvents hok) h ?_ hg
    cases g with
    | draft id amount => exact .inl ⟨id, amount, rfl, rfl⟩
    | applying q amount => exact .inr ⟨q, amount, rfl, rfl⟩
    | _ => exact (ok_saveWithEvents hok).elim
  | append events => exact inv_append inv ht memory h hg
  | reread p => exact inv_reread inv ht memory hok h hg

theorem inv_reply {e : Effect} {r : e.Reply} (hok : ok profile g e)
    (h : Delivered (system cfg profile) s l t e (.reply r w))
    (hg : Goes (discipline profile) t c (next g e r) b v) :
    Inv w v (Function.update ((discipline profile).statuses s) t (some ⟨c, next g e r, b⟩)) := by
  obtain he | rfl | ⟨a, rfl⟩ | ⟨p, id, amount, rfl⟩ | ⟨p, id, amount, rfl⟩ | ⟨a, rfl⟩ := quiet_or e
  · exact inv_quiet inv ht h he hg
  · exact inv_uuid4 inv ht h hg
  · cases a with
    | acquire paymentId => exact inv_acquire inv ht hok h hg
    | release paymentId => exact inv_release inv ht hok h hg
  · exact inv_startRefund inv ht hok h hg
  · exact inv_finishRefund inv ht hok h hg
  · exact inv_store inv ht memory hok h hg

theorem reply_may {e : Effect} {r : e.Reply} (hok : ok profile g e)
    (h : Delivered (system cfg profile) s l t e (.reply r w)) : may e r := by
  cases e with
  | store e =>
    obtain ⟨rfl, -⟩ := store_reply memory h
    cases e with
    | get paymentId => exact fun p hp => inv.books.identified hp
    | reread p =>
      cases g with
      | settling q amount =>
        obtain rfl : p = q := hok
        have stored := (inv.good ht).payment rfl
        simp only [may, InMemoryPaymentStore.answer, InMemoryPaymentStore.get]
        rw [show s.world.store.payments p.id = some p from stored, Option.getD_some]
      | _ => exact hok.elim
    | _ => trivial
  | coordinator e =>
    cases e with
    | complete key fingerprint paymentId =>
      have direct : profile.coordinator = .memory := by cases g <;> first | exact hok | exact hok.elim
      obtain rfl | ⟨message, rfl⟩ := complete_direct_reply direct h
      · trivial
      · exact nofun
    | _ => trivial
  | _ => trivial

theorem inv_wait {e : Effect} (hok : ok profile g e)
    (h : Delivered (system cfg profile) s l t e (.wait w)) :
    Inv w none ((discipline profile).statuses s) := by
  have idle {u : Tid} {x : Status Call Stage} (hu : (discipline profile).statuses s u = some x) :
      ¬ x.phase.pending := by
    by_cases hut : u = t
    · subst u
      obtain rfl := Option.some.inj (ht.symm.trans hu)
      exact fun hp => pending_never_waits memory hp hok h
    · exact not_pending h inv hut hu
  have same : Same s.world w := by
    obtain he | rfl | ⟨a, rfl⟩ | ⟨p, id, amount, rfl⟩ | ⟨p, id, amount, rfl⟩ | ⟨a, rfl⟩ := quiet_or e
    · exact quiet_same he (wait_touches h)
    · exact absurd h uuid4_never_waits
    · cases a with
      | acquire paymentId =>
        obtain ⟨lock, admits, rfl⟩ := acquire_lock_wait h
        exact same_put admits
      | release paymentId => exact absurd h release_lock_never_waits
    · obtain rfl := provider_wait h; exact .refl _
    · obtain rfl := provider_wait h; exact .refl _
    · exact absurd h (store_never_waits memory)
  exact {
    books := same.books inv.books
    good := fun hu => same.good (inv.good hu)
    drafts := inv.drafts
    pending := fun hu hp => absurd hp (idle hu)
    balance := fun id => by
      have hb := inv.balance id
      rw [outstanding_before inv ht h, Stage.due_of_not_pending (idle ht)] at hb
      rw [same.returned, same.recorded]
      exact hb }

end Step

end PySwitch.Ledger
