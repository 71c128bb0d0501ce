import PySwitch.LedgerInvariant

namespace PySwitch.OverRefund

open Async Program Service
open Ledger (returned)

/-- Where a refund is with the copy of the payment it works on. Other calls are `free`. -/
inductive Stage where
  | free
  | rest
  | loaded (payment : Payment)
  | awaiting (payment : Payment) (amount : ℤ)
  | refunded (payment : Payment) (amount : ℤ)

namespace Stage

def find (g : Stage) (p : Payment) : Stage :=
  match g with
  | .rest => .loaded p
  | g => g

def start (g : Stage) (amount : ℤ) : Stage :=
  match g with
  | .loaded p => .awaiting p amount
  | g => g

def finish (g : Stage) (r : Except Exn ProviderPaymentResult) : Stage :=
  match g, r with
  | .awaiting p amount, .ok _ => .refunded p amount
  | .awaiting p _, .error _ => .loaded p
  | g, _ => g

def store (g : Stage) : Stage :=
  match g with
  | .refunded _ _ => .rest
  | g => g

def saves (g : Stage) (p : Payment) : Prop :=
  match g with
  | .free => True
  | .refunded q amount =>
    p.id = q.id ∧ p.amount = q.amount ∧ p.refundedAmount = q.refundedAmount + amount
  | _ => False

def starts (g : Stage) (paymentId : Uuid) (amount : ℤ) : Prop :=
  match g with
  | .free => True
  | .loaded p => paymentId = p.id ∧ amount ≤ p.amount - p.refundedAmount
  | _ => False

def finishes (g : Stage) (paymentId : Uuid) (amount : ℤ) : Prop :=
  match g with
  | .free => True
  | .awaiting p amount' => paymentId = p.id ∧ amount = amount'
  | _ => False

/-- The provider has returned an amount of the payment that is not saved yet. -/
def owes (g : Stage) (paymentId : Uuid) : Prop :=
  match g with
  | .refunded p _ => p.id = paymentId
  | _ => False

/-- Nothing is owed. -/
def clear (g : Stage) : Prop :=
  match g with
  | .refunded _ _ => False
  | _ => True

end Stage

def ok (g : Stage) : Effect → Prop
  | .provider (.startRefund _ paymentId amount) => g.starts paymentId amount
  | .provider (.finishRefund _ paymentId amount) => g.finishes paymentId amount
  | .store (.save p) => g.saves p
  | .store (.saveWithEvents p _) => g.saves p
  | .store (.reread p) => g = .free ∨ ∃ amount, g = .refunded p amount
  | _ => True

def may (g : Stage) : (e : Effect) → e.Reply → Prop
  | .store (.reread p), q => g = .free ∨ q = p
  | _, _ => True

def next (g : Stage) : (e : Effect) → e.Reply → Stage
  | .store (.get _), .ok (some p) => g.find p
  | .provider (.startRefund _ _ amount), _ => g.start amount
  | .provider (.finishRefund _ _ _), r => g.finish r
  | .store (.save _), _ => g.store
  | .store (.saveWithEvents _ _), _ => g.store
  | _, _ => g

def protocol : Protocol Effect Effect.Reply Stage := ⟨ok, may, next⟩

section Follows

variable {cfg : Config} {s : Locals}

/-- A call that is not looked at may do what it likes. -/
theorem free_wp {α : Type} (m : Service α) :
    wp protocol m (fun _ _ g => g.clear) s .free := by
  unfold wp
  generalize m s = c
  induction c with
  | done a => trivial
  | perform e k ih =>
    have stays (r : e.Reply) : next .free e r = .free := by
      cases e with
      | store e => cases e <;> first | rfl | (obtain _ | (_ | _) := r <;> rfl)
      | provider e => cases e <;> rfl
      | _ => rfl
    refine ⟨?_, fun r _ => ?_⟩
    · cases e with
      | store e => cases e <;> first | trivial | exact .inl rfl
      | provider e => cases e <;> trivial
      | _ => trivial
    · rw [show protocol.next .free e r = .free from stays r]
      exact ih r

theorem save_wp {g : Stage} (p : Payment) (events : List EventEnvelope) (saves : g.saves p) :
    wp protocol (save cfg p events) (fun _ _ g' => g'.clear) s g := by
  have stored : g.store.clear := by
    cases g <;> trivial
  unfold save
  split
  · simp only [perform, wp_await, wp_effect]
    refine ⟨saves, fun r _ => ?_⟩
    cases r <;> exact stored
  · simp only [perform, wp_bind, wp_await, wp_effect]
    refine ⟨saves, fun r _ => ?_⟩
    cases r with
    | error x => exact stored
    | ok =>
      simp only [orRaise_ok, wp_onlyIf, wp_await, wp_effect]
      split
      · refine ⟨trivial, fun r _ => ?_⟩
        cases r <;> exact stored
      · exact stored

theorem refundLocked_wp (paymentId : Uuid) (amount : Option ℤ) :
    wp protocol (refundLocked cfg paymentId amount) (fun _ _ g => g.clear) s .rest := by
  simp only [refundLocked, Service.get, perform, wp_bind, wp_await, wp_effect]
  refine ⟨trivial, fun r _ => ?_⟩
  obtain x | (_ | p) := r
  · trivial
  · trivial
  simp only [orRaise_ok, wp_ite, wp_raise]
  split
  · trivial
  split
  · trivial
  rename_i bounds
  split
  · trivial
  rename_i provider found
  simp only [wp_bind, wp_effect]
  refine ⟨⟨rfl, ?_⟩, fun _ _ => ?_⟩
  · omega
  simp only [orRaise_ok, wp_bind, wp_await, wp_effect]
  refine ⟨⟨rfl, rfl⟩, fun r _ => ?_⟩
  cases r with
  | error x => trivial
  | ok result =>
    simp only [orRaise_ok, uuid4, now, perform, paymentEvent, newEvent, wp_bind, wp_effect, wp_pure]
    refine ⟨trivial, fun refundId _ => ⟨trivial, fun createdAt _ => ⟨.inr ⟨_, rfl⟩, fun q hq =>
      ⟨trivial, fun eventId _ => ⟨trivial, fun occurredAt _ => ?_⟩⟩⟩⟩⟩
    obtain rfl : p = q := (hq.resolve_left fun same => by cases same).symm
    refine wp_mono (save_wp (g := .refunded p _) _ _ ⟨rfl, rfl, rfl⟩) ?_
    intro r s' g' cleared
    cases r <;> exact cleared

theorem refund_wp (paymentId : Uuid) (amount : Option ℤ) :
    wp protocol (refund cfg paymentId amount) (fun _ _ g => g.clear) s .rest := by
  simp only [refund, perform, wp_bind, wp_await, wp_effect]
  refine ⟨trivial, fun r _ => ?_⟩
  cases r with
  | error x => trivial
  | ok =>
    simp only [orRaise_ok, wp_ensure]
    apply wp_mono (refundLocked_wp paymentId amount)
    exact fun r s' g cleared => ⟨trivial, fun _ _ => cleared⟩

end Follows

def first : Call → Stage
  | .refund _ _ => .rest
  | _ => .free

def discipline : Discipline Call Effect Effect.Reply (Except Exn Result) Stage :=
  ⟨fun _ => protocol, first, fun _ _ g => g.clear⟩

theorem run_follows (cfg : Config) (c : Call) :
    ((c.run cfg).start {}).Follows protocol (fun _ g => g.clear) (first c) := by
  apply start_follows
  cases c with
  | refund paymentId amount =>
    simp only [Call.run, wp_bind]
    apply wp_mono (refund_wp paymentId amount)
    intro r s g cleared
    cases r <;> exact cleared
  | _ => exact free_wp _

/-- No payment has had more returned than its amount. -/
def Covered (w : World) : Prop :=
  ∀ id p, w.store.payments id = some p → p.id = id ∧ returned id w.log ≤ p.amount

/-- The payments know of all that was returned of them, and that is no more than their amount. -/
def Balanced (w : World) : Prop :=
  ∀ id p, w.store.payments id = some p →
    p.id = id ∧ returned id w.log ≤ p.refundedAmount ∧ p.refundedAmount ≤ p.amount

/-- What holds of the stage of a refund that is not over. -/
def Good (w : World) (g : Stage) : Prop :=
  match g with
  | .free => False
  | .rest => True
  | .loaded p => w.store.payments p.id = some p
  | .awaiting p amount =>
    w.store.payments p.id = some p ∧ p.refundedAmount + amount ≤ p.amount
  | .refunded p amount =>
    w.store.payments p.id = some p ∧ p.refundedAmount + amount ≤ p.amount ∧
      returned p.id w.log ≤ p.refundedAmount + amount

/-- The payments know of all that was returned of them, but for what is owed. -/
def Books (w : World) (owed : Uuid → Prop) : Prop :=
  ∀ id p, w.store.payments id = some p →
    p.id = id ∧ (returned id w.log ≤ p.refundedAmount ∨ owed id) ∧ p.refundedAmount ≤ p.amount

abbrev Statuses : Type := Tid → Option (Status Call Stage)

/-- A refund that is not over owes the payment. -/
def owed (st : Statuses) (id : Uuid) : Prop :=
  ∃ t u, st t = some u ∧ u.ended = false ∧ u.phase.owes id

structure Inv (w : World) (_ : Option Tid) (st : Statuses) : Prop where
  books : Books w (owed st)
  good : ∀ {t u}, st t = some u → u.ended = false → Good w u.phase
  sole : ∀ {t t' u u'}, st t = some u → st t' = some u' → u.ended = false →
    u'.ended = false → t = t'

theorem Inv.covered {w : World} {v : Option Tid} {st : Statuses} (inv : Inv w v st) :
    Covered w := by
  intro id p hp
  obtain ⟨hid, known, bound⟩ := inv.books id p hp
  refine ⟨hid, ?_⟩
  obtain known | ⟨t, ⟨c, g, b⟩, hu, live, owes⟩ := known
  · exact known.trans bound
  · have good := inv.good hu live
    cases g with
    | refunded q amount =>
      obtain ⟨stored, less, total⟩ := good
      obtain rfl : q.id = id := owes
      obtain rfl : p = q := Option.some.inj (hp.symm.trans stored)
      exact total.trans less
    | _ => exact owes.elim

/-- Refunds are called one after the other. -/
def Sequential (s : ServiceState) : ServiceLabel → Prop
  | .call _ (.refund _ _) => s.Idle
  | .call _ _ => False
  | _ => True

def Saving (s : ServiceState) (t : Tid) : Prop :=
  (∃ p, s.At t (.store (.save p))) ∨ ∃ p events, s.At t (.store (.saveWithEvents p events))

/-- No save raises without its work being done. -/
def Durable (s : ServiceState) : ServiceLabel → Prop
  | .enter t (.fail _ false) => ¬ Saving s t
  | .resume t (.fail _ false) => ¬ Saving s t
  | _ => True

/-- The effects that neither the payments nor the refunds know of. -/
def quiet : Effect → Prop
  | .provider (.finishRefund _ _ _) => False
  | .store _ => False
  | _ => True

/-- The payments and what was returned of them are the same. -/
structure Same (w w' : World) : Prop where
  payments : w'.store.payments = w.store.payments
  returned : ∀ id, returned id w'.log = returned id w.log

theorem quiet_same {e : Effect} {w w' : World} (h : e.Touches w w') (he : quiet e) :
    Same w w' := by
  refine ⟨congrArg _ (h.store ?_), fun id => ?_⟩
  · rintro a rfl
    exact he
  · cases e with
    | circuit e =>
      obtain ⟨_, new, hn, rfl⟩ := h
      exact Ledger.returned_circuit hn id _
    | provider e =>
      obtain rfl | ⟨x, hx, rfl⟩ := h
      · rfl
      · cases hx with
        | refunded => exact he.elim
        | _ => rfl
    | host e => obtain rfl | ⟨-, rfl⟩ := h <;> rfl
    | stats e => obtain ⟨_, _, rfl⟩ := h; rfl
    | _ => obtain ⟨_, rfl⟩ := h; rfl

theorem Same.books {w w' : World} (h : Same w w') {owed : Uuid → Prop} (hw : Books w owed) :
    Books w' owed := by
  intro id p hp
  rw [h.returned]
  exact hw id p (h.payments ▸ hp)

theorem Same.good {w w' : World} (h : Same w w') {g : Stage} (hg : Good w g) : Good w' g := by
  cases g with
  | free => exact hg
  | rest => exact hg
  | loaded p =>
    rw [Good, h.payments]
    exact hg
  | awaiting p amount =>
    rw [Good, h.payments]
    exact hg
  | refunded p amount =>
    rw [Good, h.payments, h.returned]
    exact hg

section Step

variable {cfg : Config} {profile : Profile} {s : ServiceState} {l : ServiceLabel} {t : Tid}
  {c : Call} {g g' : Stage} {e : Effect} {r : e.Reply} {w : World} {b : Bool} {v : Option Tid}
  (inv : Inv s.world s.running (discipline.statuses s))
  (ht : discipline.statuses s t = some ⟨c, g, false⟩)

include inv ht

theorem books_self : Books s.world g.owes := by
  intro id p hp
  obtain ⟨hid, known, bound⟩ := inv.books id p hp
  refine ⟨hid, known.imp_right ?_, bound⟩
  rintro ⟨u, x, hu, live, owes⟩
  obtain rfl := inv.sole hu ht live rfl
  obtain rfl := Option.some.inj (hu.symm.trans ht)
  exact owes

/-- The only refund that is still going moves on. -/
theorem inv_moves (goes : Goes discipline t c g' b v) (books : Books w g'.owes)
    (self : Good w g') :
    Inv w v (Function.update (discipline.statuses s) t (some ⟨c, g', b⟩)) := by
  have ended {u : Tid} {x : Status Call Stage} (hne : u ≠ t)
      (hu : discipline.statuses s u = some x) : x.ended ≠ false :=
    fun live => hne (inv.sole hu ht live rfl)
  constructor
  · intro id p hp
    obtain ⟨hid, known, bound⟩ := books id p hp
    refine ⟨hid, known.imp_right fun owes => ?_, bound⟩
    cases goes with
    | on => exact ⟨t, _, Function.update_self .., rfl, owes⟩
    | ended post =>
      have cleared : g'.clear := post
      cases g' with
      | refunded q amount => exact cleared.elim
      | _ => exact owes.elim
  · intro u x hu live
    obtain ⟨-, rfl⟩ | ⟨hne, hu⟩ := update_cases hu
    · exact self
    · exact absurd live (ended hne hu)
  · intro u u' x x' hu hu' live live'
    obtain ⟨rfl, -⟩ | ⟨hne, hu⟩ := update_cases hu
    · obtain ⟨rfl, -⟩ | ⟨hne', hu'⟩ := update_cases hu'
      · rfl
      · exact absurd live' (ended hne' hu')
    · exact absurd live (ended hne hu)

theorem inv_stays (goes : Goes discipline t c g b v) (same : Same s.world w) :
    Inv w v (Function.update (discipline.statuses s) t (some ⟨c, g, b⟩)) :=
  inv_moves inv ht goes (same.books (books_self inv ht)) (same.good (inv.good ht rfl))

theorem inv_start {p : Provider} {id : Uuid} {amount : ℤ} {r : Unit}
    (goes : Goes discipline t c (g.start amount) b v) (hok : g.starts id amount)
    (h : Delivered (system cfg profile) s l t (.provider (.startRefund p id amount))
      (.reply r w)) :
    Inv w v (Function.update (discipline.statuses s) t (some ⟨c, g.start amount, b⟩)) := by
  have good := inv.good ht rfl
  have books := books_self inv ht
  obtain rfl := startRefund_reply h
  cases g with
  | loaded p =>
    obtain ⟨rfl, bound⟩ := hok
    have stored : s.world.store.payments p.id = some p := good
    exact inv_moves inv ht goes books ⟨stored, by omega⟩
  | free => exact good.elim
  | _ => exact hok.elim

theorem inv_finish {p : Provider} {id : Uuid} {amount : ℤ} {r : Except Exn ProviderPaymentResult}
    (goes : Goes discipline t c (g.finish r) b v) (hok : g.finishes id amount)
    (h : Delivered (system cfg profile) s l t (.provider (.finishRefund p id amount))
      (.reply r w)) :
    Inv w v (Function.update (discipline.statuses s) t (some ⟨c, g.finish r, b⟩)) := by
  have good := inv.good ht rfl
  have books := books_self inv ht
  obtain ⟨-, rfl⟩ := finishRefund_reply h
  cases g with
  | awaiting q amount' =>
    obtain ⟨rfl, rfl⟩ := hok
    obtain ⟨stored, bound⟩ := good
    cases r with
    | error x => exact inv_moves inv ht goes books stored
    | ok result =>
      have log (id : Uuid) :
          returned id (s.world.note (.refundEnded t p q.id amount (.ok result))).log =
            (if q.id = id then amount else 0) + returned id s.world.log := rfl
      refine inv_moves inv ht goes (fun id p' hp => ?_) ⟨stored, bound, ?_⟩
      · obtain ⟨hid, known, less⟩ := books id p' hp
        refine ⟨hid, ?_, less⟩
        by_cases same : q.id = id
        · exact .inr same
        · rw [log, if_neg same, zero_add]
          exact .inl (known.resolve_right False.elim)
      · have known := (books q.id q stored).2.1.resolve_right False.elim
        rw [log, if_pos rfl]
        omega
  | free => exact good.elim
  | _ => exact hok.elim

theorem inv_save {p : Payment} {m : InMemoryPaymentStore} (saves : g.saves p)
    (goes : Goes discipline t c g.store b v)
    (payments : m.payments = Function.update s.world.store.payments p.id (some p)) :
    Inv (Effect.setStore s.world m) v
      (Function.update (discipline.statuses s) t (some ⟨c, g.store, b⟩)) := by
  have good := inv.good ht rfl
  have books := books_self inv ht
  cases g with
  | refunded q amount' =>
    obtain ⟨hid, amount, refunded⟩ := saves
    obtain ⟨stored, bound, total⟩ := good
    have rest : Good (Effect.setStore s.world m) .rest := trivial
    apply inv_moves inv ht goes ?_ rest
    intro id p' hp
    have hp : m.payments id = some p' := hp
    have log : returned id (Effect.setStore s.world m).log = returned id s.world.log := rfl
    rw [payments] at hp
    rw [log]
    obtain ⟨rfl, rfl⟩ | ⟨other, hp⟩ := update_cases hp
    · rw [hid, amount, refunded]
      exact ⟨rfl, .inl total, bound⟩
    · obtain ⟨hid', known, less⟩ := books id p' hp
      refine ⟨hid', .inl (known.resolve_right fun owes => ?_), less⟩
      exact other (hid.trans owes).symm
  | free => exact good.elim
  | _ => exact saves.elim

omit inv ht in
/-- A save that is no lost one has done its work. -/
theorem save_payments {e : StoreEffect} {p : Payment}
    (save : e = .save p ∨ ∃ events, e = .saveWithEvents p events) (durable : Durable s l)
    {r : e.Reply} (h : Delivered (system cfg profile) s l t (.store e) (.reply r w)) :
    ∃ m : InMemoryPaymentStore, w = Effect.setStore s.world m ∧
      m.payments = Function.update s.world.store.payments p.id (some p) := by
  have work : (s.world.store.commit e).payments =
      Function.update s.world.store.payments p.id (some p) := by
    obtain rfl | ⟨events, rfl⟩ := save <;> rfl
  have saving : Saving s t := by
    obtain rfl | ⟨events, rfl⟩ := save
    · exact .inl ⟨p, h.reached⟩
    · exact .inr ⟨p, events, h.reached⟩
  obtain ⟨m, rfl, outcome⟩ := store_outcome h
  refine ⟨m, rfl, ?_⟩
  cases outcome with
  | done => exact work
  | copied external => obtain he | ⟨_, he⟩ := save <;> cases he
  | @failed _ r x stored external failing raised =>
    cases stored with
    | true => exact work
    | false => obtain rfl | rfl := failing <;> exact absurd saving durable

theorem inv_get {id : Uuid} {r : Except Exn (Option Payment)}
    (goes : Goes discipline t c (next g (.store (.get id)) r) b v)
    (h : Delivered (system cfg profile) s l t (.store (.get id)) (.reply r w)) :
    Inv w v (Function.update (discipline.statuses s) t
      (some ⟨c, next g (.store (.get id)) r, b⟩)) := by
  have good := inv.good ht rfl
  obtain ⟨m, rfl, outcome⟩ := store_outcome h
  have same {m : InMemoryPaymentStore} (hm : m = s.world.store) :
      Same s.world (Effect.setStore s.world m) := by
    subst hm
    exact ⟨rfl, fun _ => rfl⟩
  cases outcome with
  | done =>
    have reply : s.world.store.answer (.get id) = .ok (s.world.store.payments id) := rfl
    rw [reply] at goes ⊢
    cases found : s.world.store.payments id with
    | none =>
      rw [found] at goes
      exact inv_stays inv ht goes (same rfl)
    | some p =>
      rw [found] at goes
      cases g with
      | rest =>
        have books := books_self inv ht
        refine inv_moves inv ht goes ((same rfl).books books) ?_
        show s.world.store.payments p.id = some p
        rw [(inv.books id p found).1, found]
      | _ => exact inv_stays inv ht goes (same rfl)
  | @failed _ r x stored external failing raised =>
    cases r with
    | ok => cases raised
    | error x => exact inv_stays inv ht goes (same (by cases stored <;> rfl))

theorem reread_copies {p q : Payment} (hok : g = .free ∨ ∃ amount, g = .refunded p amount)
    (h : Delivered (system cfg profile) s l t (.store (.reread p)) (.reply q w)) :
    q = p ∧ Same s.world w := by
  have good := inv.good ht rfl
  obtain rfl | ⟨amount, rfl⟩ := hok
  · exact good.elim
  obtain ⟨m, rfl, outcome⟩ := store_outcome h
  cases outcome with
  | done =>
    have stored : s.world.store.payments p.id = some p := good.1
    refine ⟨?_, rfl, fun _ => rfl⟩
    show (s.world.store.payments p.id).getD p = p
    rw [stored, Option.getD_some]
  | copied external => exact ⟨rfl, rfl, fun _ => rfl⟩
  | failed external failing raised => cases raised

theorem reply_may (hok : ok g e) (h : Delivered (system cfg profile) s l t e (.reply r w)) :
    may g e r := by
  cases e with
  | store e =>
    cases e with
    | reread p => exact .inr (reread_copies inv ht hok h).1
    | _ => trivial
  | _ => trivial

theorem inv_reply (durable : Durable s l) (hok : ok g e)
    (h : Delivered (system cfg profile) s l t e (.reply r w))
    (goes : Goes discipline t c (next g e r) b v) :
    Inv w v (Function.update (discipline.statuses s) t (some ⟨c, next g e r, b⟩)) := by
  have quietly (he : quiet e) (same : next g e r = g) :
      Inv w v (Function.update (discipline.statuses s) t (some ⟨c, next g e r, b⟩)) := by
    rw [same] at goes ⊢
    exact inv_stays inv ht goes (quiet_same (reply_touches h) he)
  cases e with
  | provider e =>
    cases e with
    | startRefund p id amount => exact inv_start inv ht goes hok h
    | finishRefund p id amount => exact inv_finish inv ht goes hok h
    | _ => exact quietly trivial rfl
  | store e =>
    cases e with
    | get id => exact inv_get inv ht goes h
    | reread p => exact inv_stays inv ht goes (reread_copies inv ht hok h).2
    | save p =>
      obtain ⟨m, rfl, payments⟩ := save_payments (.inl rfl) durable h
      exact inv_save inv ht hok goes payments
    | saveWithEvents p events =>
      obtain ⟨m, rfl, payments⟩ := save_payments (.inr ⟨events, rfl⟩) durable h
      exact inv_save inv ht hok goes payments
    | getByIdempotency key =>
      obtain ⟨m, rfl, outcome⟩ := store_outcome h
      refine inv_stays inv ht goes ⟨?_, fun _ => rfl⟩
      cases outcome with
      | done => rfl
      | @failed _ r x stored => cases stored <;> rfl
    | append events =>
      obtain ⟨m, rfl, outcome⟩ := store_outcome h
      refine inv_stays inv ht goes ⟨?_, fun _ => rfl⟩
      cases outcome with
      | done => rfl
      | @failed _ r x stored => cases stored <;> rfl
  | _ => exact quietly trivial rfl

omit ht in
theorem inv_wait (h : Delivered (system cfg profile) s l t e (.wait w)) :
    Inv w none (discipline.statuses s) := by
  have same : Same s.world w := by
    cases e with
    | store e =>
      obtain rfl := store_wait h
      exact ⟨rfl, fun _ => rfl⟩
    | provider e =>
      obtain rfl := provider_wait h
      exact ⟨rfl, fun _ => rfl⟩
    | _ => exact quiet_same (wait_touches h) trivial
  exact ⟨same.books inv.books, fun hu live => same.good (inv.good hu live), inv.sole⟩

end Step

theorem inv_call {s : ServiceState} {t : Tid} {c : Call} {b : Bool} {v : Option Tid}
    (meets : Sequential s (.call t c)) (inv : Inv s.world none (discipline.statuses s)) :
    Inv s.world v (Function.update (discipline.statuses s) t (some ⟨c, first c, b⟩)) := by
  cases c with
  | refund paymentId amount =>
    have idle : s.Idle := meets
    constructor
    · intro id p hp
      obtain ⟨hid, known, bound⟩ := inv.books id p hp
      refine ⟨hid, known.imp_right ?_, bound⟩
      rintro ⟨u, x, hu, live, -⟩
      cases (discipline.statuses_idle idle hu).symm.trans live
    · intro u x hu live
      obtain ⟨-, rfl⟩ | ⟨-, hu⟩ := update_cases hu
      · trivial
      · exact inv.good hu live
    · intro u u' x x' hu hu' live live'
      obtain ⟨rfl, -⟩ | ⟨-, hu⟩ := update_cases hu
      · obtain ⟨rfl, -⟩ | ⟨-, hu'⟩ := update_cases hu'
        · rfl
        · cases (discipline.statuses_idle idle hu').symm.trans live'
      · cases (discipline.statuses_idle idle hu).symm.trans live
  | _ => exact meets.elim

theorem inv_outside {a : Outside} {w w' : World} {st : Statuses} (inv : Inv w none st)
    (h : a.apply w = some w') : Inv w' none st := by
  have frame := outside_frame h
  have same : Same w w' := ⟨congrArg _ frame.store, fun id => by rw [frame.log]⟩
  exact ⟨same.books inv.books, fun hu live => same.good (inv.good hu live), inv.sole⟩

theorem maintains (cfg : Config) (profile : Profile) :
    Maintains (system cfg profile) (fun s l => Sequential s l ∧ Durable s l) discipline Inv where
  follows := run_follows cfg
  call := fun meets inv _ _ => inv_call meets.1 inv
  reply := fun meets inv ht hok h =>
    ⟨reply_may inv ht hok h, fun _ _ goes => inv_reply inv ht meets.2 hok h goes⟩
  wait := fun _ inv _ _ h => inv_wait inv h
  outside := fun _ inv h => inv_outside inv h

/-- One refund after the other, a payment has no more returned than its amount, as long as no
save raises without its work being done. -/
theorem refunds_covered (cfg : Config) (profile : Profile) {w : World} (balanced : Balanced w)
    {s : ServiceState} (h : Reaches (system cfg profile)
      (fun s l => Sequential s l ∧ Durable s l) (.empty w) s) : Covered s.world := by
  refine ((maintains cfg profile).reaches_empty ⟨fun id p hp => ?_, nofun, nofun⟩ h).2.covered
  obtain ⟨hid, known, bound⟩ := balanced id p hp
  exact ⟨hid, .inl known, bound⟩

section Examples

open Scenario

/-- The payments are in a database, which may fail. -/
def database : Profile := { storage := .external }

/-- A payment of 100 that the provider has completed. -/
def bought : World :=
  { World.initial fragile [] with
    shared := { Shared.initial with
      nextUuid := 1
      store := InMemoryPaymentStore.empty.save {
        merchantId := "merchant"
        amount := 100
        currency := "EUR"
        paymentMethodType := "card"
        idempotencyKey := "a"
        id := 0
        status := .succeeded
        createdAt := 0
        updatedAt := 0
        provider := some "stripe" } } }

theorem bought_balanced : Balanced bought := by
  intro id p hp
  have hp : Function.update (fun _ => none) 0 _ id = some p := hp
  obtain ⟨rfl, rfl⟩ | ⟨-, hp⟩ := update_cases hp
  · exact ⟨rfl, by decide, by decide⟩
  · cases hp

/-- A refund that begins when no call is under way, and takes its steps alone. -/
theorem sequential_refund {cfg : Config} {profile : Profile}
    {C : ServiceState → ServiceLabel → Prop} {t : Tid} {id : Uuid} {amount : Option ℤ}
    {ls : List ServiceLabel} {s s' : ServiceState} (idle : s.Idle)
    (h : run (system cfg profile) (.call t (.refund id amount) :: ls) s = some s')
    (rest : called ls = []) (meets : ∀ l ∈ .call t (.refund id amount) :: ls, ∀ s, C s l) :
    Reaches (system cfg profile) (fun s l => Sequential s l ∧ C s l) s s' := by
  obtain ⟨u, started, moved⟩ := Option.bind_eq_some_iff.mp h
  obtain ⟨now, later⟩ := List.forall_mem_cons.mp meets
  have further : ∀ l ∈ ls, ∀ s, Sequential s l ∧ C s l := by
    intro l hl s
    refine ⟨?_, later l hl s⟩
    cases l with
    | call t c =>
      have mem : t ∈ called ls := List.mem_filterMap.mpr ⟨_, hl, rfl⟩
      rw [rest] at mem
      cases mem
    | _ => trivial
  exact (Reaches.refl.tail ⟨idle, now s⟩ started).trans
    (run_reaches _ (throughout_of_forall _ further _) moved)

/-- No operation of the store fails, or those that fail do their work. -/
def committing : ServiceLabel → Bool
  | .enter _ (.fail _ false) => false
  | .resume _ (.fail _ false) => false
  | _ => true

theorem durable_of_committing {l : ServiceLabel} (h : committing l = true) (s : ServiceState) :
    Durable s l := by
  unfold Durable
  split
  · cases h
  · cases h
  · trivial

/-- A refund whose save is committed before it raises. -/
def raisingRun : List ServiceLabel :=
  startRefund 0 0 (some 60) ++ returns 0 "refund" ++ event 0 0 ++ [.enter 0 .go] ++ event 0 0 ++
  [.enter 0 (.fail (.other "database") true), .enter 0 .go]

theorem refunds_covered_full : ∃ s : ServiceState, returned 0 s.world.log = 100 ∧
    Covered s.world := by
  have h : ∃ u ∈ run (system (service ["stripe"] 1) database) raisingRun (.empty bought),
      (∀ t ∈ called raisingRun, u.ended t = true) ∧
      ∃ s ∈ run (system (service ["stripe"] 1) database)
        (startRefund 1 0 none ++ finishRefund 1 0) u, returned 0 s.world.log = 100 := by
    decide +kernel
  obtain ⟨u, first, ended, s, second, total⟩ := h
  have before := sequential_refund (C := Durable) (fun _ _ task => by cases task) first
    (by decide) fun l hl s => durable_of_committing (by revert l; decide) s
  have after := sequential_refund (C := Durable) (run_idle _ first ended) second
    (by decide) fun l hl s => durable_of_committing (by revert l; decide) s
  exact ⟨s, total, refunds_covered _ _ bought_balanced (before.trans after)⟩

/-- A full refund is returned, and its save fails. -/
def unsavedRun : List ServiceLabel :=
  startRefund 0 0 none ++ returns 0 "refund" ++ event 0 0 ++ [.enter 0 .go] ++ event 0 0 ++
  [.enter 0 (.fail (.other "database") false), .enter 0 .go]

/-- The same refund, made again. -/
def repeatedRun : List ServiceLabel := startRefund 1 0 none ++ finishRefund 1 0

theorem unsaved_refund_repeated : ∃ s, Reaches (system (service ["stripe"] 1) database) Sequential
    (.empty bought) s ∧ ¬ Covered s.world := by
  have h : ∃ u ∈ run (system (service ["stripe"] 1) database) unsavedRun (.empty bought),
      (∀ t ∈ called unsavedRun, u.ended t = true) ∧
      ∃ s ∈ run (system (service ["stripe"] 1) database) repeatedRun u,
        ∃ p ∈ s.world.store.payments 0, p.amount = 100 ∧ returned 0 s.world.log = 200 := by
    decide +kernel
  obtain ⟨u, first, ended, s, second, p, stored, amount, total⟩ := h
  have before := sequential_refund (C := fun _ _ => True) (fun _ _ task => by cases task) first
    (by decide) fun _ _ _ => trivial
  have after := sequential_refund (C := fun _ _ => True) (run_idle _ first ended) second
    (by decide) fun _ _ _ => trivial
  refine ⟨s, (before.trans after).mono fun _ _ meets => meets.1, fun covered => ?_⟩
  have bound := (covered 0 p stored).2
  omega

end Examples

end PySwitch.OverRefund
