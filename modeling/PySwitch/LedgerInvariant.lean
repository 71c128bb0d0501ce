import PySwitch.Answers
import PySwitch.LedgerProtocol

namespace PySwitch.Ledger

open Async Program Service

/-- What providers have returned of a payment. -/
def returned (id : Uuid) : List Happening → ℤ
  | [] => 0
  | .refundEnded _ _ paymentId amount (.ok _) :: log =>
    (if paymentId = id then amount else 0) + returned id log
  | _ :: log => returned id log

/-- What the store says has been refunded of a payment. -/
def recorded (w : World) (id : Uuid) : ℤ :=
  match w.store.payments id with
  | some p => p.refundedAmount
  | none => 0

/-- The payment a refund works on. -/
def Stage.payment : Stage → Option Payment
  | .loaded p => some p
  | .awaiting p _ => some p
  | .settling p _ => some p
  | .applying p _ => some p
  | _ => none

def Stage.refund : Stage → Option (Payment × ℤ)
  | .awaiting p amount => some (p, amount)
  | .settling p amount => some (p, amount)
  | .applying p amount => some (p, amount)
  | _ => none

/-- What a provider has returned of a payment and the refund has not recorded yet. -/
def Stage.due : Stage → Uuid → ℤ
  | .settling p amount, id => if p.id = id then amount else 0
  | .applying p amount, id => if p.id = id then amount else 0
  | _, _ => 0

theorem Stage.lock_of_payment {g : Stage} {p : Payment} (h : g.payment = some p) :
    g.lock = some p.id := by
  cases g <;> cases h <;> rfl

theorem Stage.due_of_not_pending {g : Stage} (h : ¬ g.pending) (id : Uuid) : g.due id = 0 := by
  cases g <;> first | rfl | exact absurd trivial h

/-- What holds of the stage of one task. -/
structure Good (w : World) (t : Tid) (g : Stage) : Prop where
  lock : ∀ {id}, g.lock = some id → t ∈ (w.process.refundLocks id).holders
  payment : ∀ {p}, g.payment = some p → w.store.payments p.id = some p
  refunding : ∀ {p amount}, g.refund = some (p, amount) → Refunding p amount
  draft : ∀ {id amount}, g = .draft id amount →
    id < w.shared.nextUuid ∧ w.store.payments id = none ∧ 0 < amount
  ordered : ∀ {amount}, g = .ordered amount → 0 < amount

theorem good_outside {w : World} {t : Tid} : Good w t .outside := ⟨nofun, nofun, nofun, nofun, nofun⟩

theorem good_settled {w : World} {t : Tid} {id : Uuid}
    (lock : ∀ {id'}, (Stage.settled id).lock = some id' → t ∈ (w.process.refundLocks id').holders) :
    Good w t (.settled id) :=
  ⟨lock, nofun, nofun, nofun, nofun⟩

/-- What holds of the world whatever the tasks are doing. -/
structure Books (w : World) : Prop where
  locks : ∀ id, (w.process.refundLocks id).limit = 1
  fresh : ∀ {id p}, w.store.payments id = some p → id < w.shared.nextUuid
  identified : ∀ {id p}, w.store.payments id = some p → p.id = id
  consistent : ∀ {id p}, w.store.payments id = some p → Consistent p

abbrev Statuses : Type := Tid → Option (Status Call Stage)

/-- What the running task has had refunded and not recorded yet. -/
def outstanding (running : Option Tid) (st : Statuses) (id : Uuid) : ℤ :=
  match running.bind st with
  | some u => u.phase.due id
  | none => 0

structure Inv (w : World) (running : Option Tid) (st : Statuses) : Prop where
  books : Books w
  good : ∀ {t u}, st t = some u → Good w t u.phase
  drafts : ∀ {t t' u u' id amount amount'}, st t = some u → st t' = some u' →
    u.phase = .draft id amount → u'.phase = .draft id amount' → t = t'
  pending : ∀ {t u}, st t = some u → u.phase.pending → running = some t
  balance : ∀ id, returned id w.log = recorded w id + outstanding running st id

theorem Good.frame {w w' : World} {t : Tid} {g : Stage} (h : Good w t g)
    (locks : ∀ id, t ∈ (w.process.refundLocks id).holders →
      t ∈ (w'.process.refundLocks id).holders)
    (payment : ∀ p, g.payment = some p → w.store.payments p.id = some p →
      w'.store.payments p.id = some p)
    (draft : ∀ id amount, g = .draft id amount → w.store.payments id = none →
      w'.store.payments id = none)
    (nextUuid : w.shared.nextUuid ≤ w'.shared.nextUuid) : Good w' t g where
  lock := fun hl => locks _ (h.lock hl)
  payment := fun hp => payment _ hp (h.payment hp)
  refunding := h.refunding
  draft := fun hd => by
    obtain ⟨fresh, new, positive⟩ := h.draft hd
    exact ⟨Nat.lt_of_lt_of_le fresh nextUuid, draft _ _ hd new, positive⟩
  ordered := h.ordered

/-- The payments and the refunds are the same, and no holder of a lock is put out. -/
structure Same (w w' : World) : Prop where
  locks : ∀ id, (w.process.refundLocks id).Admits (w'.process.refundLocks id)
  payments : w'.store.payments = w.store.payments
  nextUuid : w'.shared.nextUuid = w.shared.nextUuid
  returned : ∀ id, returned id w'.log = returned id w.log

namespace Same

variable {w w' : World}

theorem of_eq (locks : w'.process.refundLocks = w.process.refundLocks)
    (payments : w'.store.payments = w.store.payments)
    (nextUuid : w'.shared.nextUuid = w.shared.nextUuid)
    (returned : ∀ id, Ledger.returned id w'.log = Ledger.returned id w.log) : Same w w' :=
  ⟨fun id => by rw [locks]; exact .refl _, payments, nextUuid, returned⟩

theorem refl (w : World) : Same w w := .of_eq rfl rfl rfl fun _ => rfl

theorem good (h : Same w w') {t : Tid} {g : Stage} (hg : Good w t g) : Good w' t g := by
  refine hg.frame (fun id => (h.locks id).holders t) ?_ ?_ (by rw [h.nextUuid])
  · intro p _ hp
    rwa [h.payments]
  · intro id amount _ hn
    rwa [h.payments]

theorem books (h : Same w w') (hw : Books w) : Books w' where
  locks := fun id => (h.locks id).limit.trans (hw.locks id)
  fresh := fun hp => by rw [h.nextUuid]; exact hw.fresh (h.payments ▸ hp)
  identified := fun hp => hw.identified (h.payments ▸ hp)
  consistent := fun hp => hw.consistent (h.payments ▸ hp)

theorem recorded (h : Same w w') (id : Uuid) : recorded w' id = recorded w id := by
  simp only [Ledger.recorded, h.payments]

end Same

/-- The effects that neither the locks, the payments nor the refunds know of. -/
def quiet : Effect → Prop
  | .host .uuid4 => False
  | .refundLock _ => False
  | .provider (.startRefund _ _ _) => False
  | .provider (.finishRefund _ _ _) => False
  | .store _ => False
  | _ => True

theorem quiet_next {e : Effect} (h : quiet e) (g : Stage) (r : e.Reply) : next g e r = g := by
  cases e with
  | host e => cases e <;> first | exact h.elim | (cases g <;> rfl)
  | provider e => cases e <;> first | exact h.elim | (cases g <;> rfl)
  | refundLock e => exact h.elim
  | store e => exact h.elim
  | _ => cases g <;> rfl

theorem returned_circuit {new : List Happening} (h : ∀ x ∈ new, Happening.ofCircuit x = true)
    (id : Uuid) (log : List Happening) : returned id (new ++ log) = returned id log := by
  induction new with
  | nil => rfl
  | cons x new ih =>
    obtain ⟨hx, hn⟩ := List.forall_mem_cons.mp h
    rw [List.cons_append, ← ih hn]
    cases x <;> first | rfl | cases hx

theorem quiet_same {e : Effect} (he : quiet e) {w w' : World} (h : e.Touches w w') :
    Same w w' := by
  cases e with
  | host e =>
    obtain rfl | ⟨rfl, -⟩ := h
    · exact .refl _
    · exact he.elim
  | circuit e =>
    obtain ⟨_, new, hn, rfl⟩ := h
    exact .of_eq rfl rfl rfl fun id => returned_circuit hn id _
  | provider e =>
    obtain rfl | ⟨x, hx, rfl⟩ := h
    · exact .refl _
    · cases hx with
      | refunded => exact he.elim
      | _ => exact .of_eq rfl rfl rfl fun _ => rfl
  | stats e => obtain ⟨_, _, rfl⟩ := h; exact .of_eq rfl rfl rfl fun _ => rfl
  | semaphore e => obtain ⟨_, rfl⟩ := h; exact .of_eq rfl rfl rfl fun _ => rfl
  | coordinator e => obtain ⟨_, rfl⟩ := h; exact .of_eq rfl rfl rfl fun _ => rfl
  | redis e => obtain ⟨_, rfl⟩ := h; exact .of_eq rfl rfl rfl fun _ => rfl
  | refundLock e => exact he.elim
  | store e => exact he.elim

def first : Call → Stage
  | .create data => .ordered data.amount
  | .refund _ _ => .queued
  | .recover _ => .outside

def post : Call → Except Exn Result → Stage → Prop
  | .refund _ _, .ok _, g => g = .unlocked true
  | .refund _ _, .error _, g => g = .queued ∨ g = .unlocked false
  | _, _, g => g.creating

def discipline (profile : Profile) : Discipline Call Effect Effect.Reply (Except Exn Result) Stage :=
  ⟨fun _ => protocol profile, first, post⟩

theorem post_not_pending {c : Call} {a : Except Exn Result} {g : Stage} (h : post c a g) :
    ¬ g.pending := by
  cases c with
  | refund paymentId amount =>
    cases a with
    | ok result => obtain rfl : g = .unlocked true := h; exact id
    | error x => obtain rfl | rfl := h <;> exact id
  | _ => cases g <;> first | exact id | exact h.elim

section Step

variable {cfg : Config} {profile : Profile} {s : ServiceState} {l : ServiceLabel} {t : Tid}
  {c : Call} {g g' : Stage} {e : Effect} {r : e.Reply} {w : World} {b : Bool} {v : Option Tid}

theorem not_pending {a : Answer e.Reply World} {st : Statuses}
    (h : Delivered (system cfg profile) s l t e a) (inv : Inv s.world s.running st) {u : Tid}
    (hu : u ≠ t) {x : Status Call Stage} (hx : st u = some x) : ¬ x.phase.pending :=
  fun hp => hu (h.running (inv.pending hx hp))

theorem goes_pending (hg : Goes (discipline profile) t c g b v) (hp : g.pending) :
    v = some t := by
  cases hg with
  | on => rfl
  | ended hpost => exact absurd hp (post_not_pending hpost)

theorem outstanding_before {st : Statuses} (inv : Inv s.world s.running st)
    (ht : st t = some ⟨c, g, false⟩) {a : Answer e.Reply World}
    (h : Delivered (system cfg profile) s l t e a) (id : Uuid) :
    outstanding s.running st id = g.due id := by
  obtain ⟨i, -, running, -⟩ | ⟨i, -, idle, -⟩ := h.answer
  · simp only [outstanding, running, Option.bind_some, ht]
  · have hg : ¬ g.pending := fun hp => by
      have := inv.pending ht hp
      rw [idle] at this
      cases this
    rw [Stage.due_of_not_pending hg]
    simp only [outstanding, idle, Option.bind_none]

theorem outstanding_after {st : Statuses} (hg : Goes (discipline profile) t c g b v) (id : Uuid) :
    outstanding v (Function.update st t (some ⟨c, g, b⟩)) id = g.due id := by
  cases hg with
  | on => simp only [outstanding, Option.bind_some, Function.update_self]
  | ended hpost =>
    rw [Stage.due_of_not_pending (post_not_pending hpost)]
    simp only [outstanding, Option.bind_none]

variable (inv : Inv s.world s.running ((discipline profile).statuses s))
  (ht : (discipline profile).statuses s t = some ⟨c, g, false⟩)
  (h : Delivered (system cfg profile) s l t e (.reply r w))
  (hg : Goes (discipline profile) t c g' b v)

include inv ht h hg

/-- What has to be shown of a step that takes a task on to another stage. -/
theorem inv_moves (books : Books w)
    (others : ∀ u x, u ≠ t → (discipline profile).statuses s u = some x →
      Good s.world u x.phase → Good w u x.phase)
    (self : Good w t g')
    (drafts : ∀ {id amount'}, g' = .draft id amount' → ∀ u x amount, u ≠ t →
      (discipline profile).statuses s u = some x → x.phase ≠ .draft id amount)
    (balance : ∀ id, returned id s.world.log = recorded s.world id + g.due id →
      returned id w.log = recorded w id + g'.due id) :
    Inv w v (Function.update ((discipline profile).statuses s) t (some ⟨c, g', b⟩)) where
  books := books
  good := fun hu => by
    obtain ⟨rfl, rfl⟩ | ⟨hne, hu⟩ := update_cases hu
    · exact self
    · exact others _ _ hne hu (inv.good hu)
  drafts := fun hu hu' hd hd' => by
    obtain ⟨rfl, rfl⟩ | ⟨hne, old⟩ := update_cases hu <;>
      obtain ⟨rfl, rfl⟩ | ⟨hne', old'⟩ := update_cases hu'
    · rfl
    · exact absurd hd' (drafts hd _ _ _ hne' old')
    · exact absurd hd (drafts hd' _ _ _ hne old)
    · exact inv.drafts old old' hd hd'
  pending := fun hu hp => by
    obtain ⟨rfl, rfl⟩ | ⟨hne, hu⟩ := update_cases hu
    · exact goes_pending hg hp
    · exact absurd hp (not_pending h inv hne hu)
  balance := fun id => by
    rw [outstanding_after hg]
    refine balance id ?_
    rw [← outstanding_before inv ht h]
    exact inv.balance id

theorem inv_same (same : Same s.world w) (self : Good w t g')
    (draft : ∀ id amount, g' = .draft id amount → g = .draft id amount)
    (due : ∀ id, g'.due id = g.due id) :
    Inv w v (Function.update ((discipline profile).statuses s) t (some ⟨c, g', b⟩)) := by
  refine inv_moves inv ht h hg (same.books inv.books) (fun _ _ _ _ hx => same.good hx) self ?_ ?_
  · intro id amount' hd' u x amount hne hu hd
    exact hne (inv.drafts hu ht hd (draft _ _ hd'))
  · intro id hb
    rw [same.returned, same.recorded, due, hb]

omit hg

theorem inv_quiet (he : quiet e) (hg : Goes (discipline profile) t c (next g e r) b v) :
    Inv w v (Function.update ((discipline profile).statuses s) t (some ⟨c, next g e r, b⟩)) := by
  have same := quiet_same he (reply_touches h)
  rw [quiet_next he] at hg ⊢
  exact inv_same inv ht h hg same (same.good (inv.good ht)) (fun _ _ hd => hd) fun _ => rfl

end Step

end PySwitch.Ledger
