import PySwitch.CreateFootprint
import PySwitch.SemaphoreQueue

namespace PySwitch.Locks

open Async Program Service

/-- Where a call is with the lock of a payment. Only a refund is ever anywhere but `away`. -/
inductive Stage where
  | away
  | asking (paymentId : Uuid)
  | inside (paymentId : Uuid)
  | left
  deriving DecidableEq

/-- The effects of a refund that has its lock. -/
def refunding : Effect → Prop
  | .host .now => True
  | .host .uuid4 => True
  | .provider (.startRefund _ _ _) => True
  | .provider (.finishRefund _ _ _) => True
  | .store _ => True
  | _ => False

section Protocol

variable (A : Effect → Prop)

def ok : Stage → Effect → Prop
  | .away, e => A e ∨ e.creating
  | .asking paymentId, .refundLock (.acquire other) => other = paymentId
  | .asking _, _ => False
  | .inside paymentId, .refundLock (.release other) => other = paymentId
  | .inside _, e => refunding e
  | .left, _ => False

def next : Stage → (e : Effect) → e.Reply → Stage
  | .asking paymentId, .refundLock (.acquire _), .ok _ => .inside paymentId
  | .asking _, .refundLock (.acquire _), .error _ => .left
  | .inside _, .refundLock (.release _), _ => .left
  | g, _, _ => g

def protocol : Protocol Effect Effect.Reply Stage := ⟨ok A, fun _ _ _ => True, next⟩

/-- Only `create` has dealings with the coordinator. -/
def scope : Call → Effect → Prop
  | .create _ => A
  | _ => fun _ => False

def discipline : Discipline Call Effect Effect.Reply (Except Exn Result) Stage where
  protocol := fun c => protocol (scope A c)
  first := fun
    | .refund paymentId _ => .asking paymentId
    | _ => .away
  post := fun _ _ g => g = .away ∨ g = .left

abbrev Statuses : Type := Tid → Option (Status Call Stage)

variable {A}

theorem scope_apart (apart : ∀ a, ¬A (.refundLock a)) (c : Call) (a : RefundLockEffect) :
    ¬scope A c (.refundLock a) := by
  cases c with
  | create data => exact apart a
  | _ => exact id

theorem next_refunding {paymentId : Uuid} {e : Effect} (h : refunding e) (r : e.Reply) :
    next (.inside paymentId) e r = .inside paymentId := by
  cases e with
  | refundLock e => exact h.elim
  | _ => rfl

theorem ok_refunding {paymentId : Uuid} {e : Effect} (h : refunding e) :
    ok A (.inside paymentId) e := by
  cases e with
  | refundLock e => exact h.elim
  | _ => exact h

theorem keeps_inside {α : Type} {m : Service α} {paymentId : Uuid} (h : Uses refunding m) :
    Keeps (protocol A) (fun _ g => g = .inside paymentId) m :=
  keeps_of_uses h fun _ g e hg he => by
    subst hg
    exact ⟨ok_refunding he, fun r _ => next_refunding he r⟩

theorem refunding_of_hosting (e : Effect) (h : e.hosting) : refunding e := by
  cases e with
  | host e => cases e <;> trivial
  | _ => exact h.elim

theorem refunding_of_saving (e : Effect) (h : e.saving) : refunding e := by
  cases e with
  | store e => trivial
  | _ => exact h.elim

theorem uses_refundLocked (cfg : Config) (paymentId : Uuid) (amount : Option ℤ) :
    Uses refunding (refundLocked cfg paymentId amount) := by
  apply uses_bind (uses_await (uses_effect (e := Effect.store (.get paymentId)) trivial))
  intro found
  cases found with
  | none => exact uses_raise _
  | some payment =>
    apply uses_ite (uses_raise _)
    apply uses_ite (uses_raise _)
    split
    · exact uses_raise _
    · rename_i provider _
      apply uses_bind (uses_effect trivial)
      intro _
      apply uses_bind (uses_await (uses_effect
        (e := Effect.provider (.finishRefund provider _ _)) trivial))
      intro result
      apply uses_bind (uses_mono refunding_of_hosting uses_uuid4)
      intro id
      apply uses_bind (uses_mono refunding_of_hosting uses_now)
      intro createdAt
      apply uses_bind (uses_effect trivial)
      intro current
      apply uses_bind (uses_mono refunding_of_hosting (uses_newEvent _ _ _ _ _))
      intro event
      apply uses_bind (uses_mono refunding_of_saving (uses_save _ _ _))
      exact fun _ => uses_pure _

theorem refund_wp (cfg : Config) (paymentId : Uuid) (amount : Option ℤ) (s : Locals) :
    wp (protocol A) (refund cfg paymentId amount) (fun _ _ g => g = .left) s
      (.asking paymentId) := by
  simp only [refund, perform, wp_bind, wp_await, wp_effect]
  refine ⟨rfl, fun r _ => ?_⟩
  cases r with
  | error x => rfl
  | ok _ =>
    simp only [orRaise_ok, wp_ensure]
    apply wp_mono (keeps_inside (uses_refundLocked cfg paymentId amount) s _ rfl)
    rintro r s' g rfl
    exact ⟨rfl, fun _ _ => rfl⟩

theorem away_neutral (g : Stage) (e : Effect) (hg : g = .away) (h : A e ∨ e.creating) :
    (protocol A).ok g e ∧ ∀ r, (protocol A).may g e r → (protocol A).next g e r = .away := by
  subst hg
  exact ⟨h, fun _ _ => rfl⟩

theorem recover_keeps (cfg : Config) (provider : Provider) :
    Keeps (protocol A) (fun _ g => g = .away) (recordSuccess cfg provider) := by
  have creating (g : Stage) (e : Effect) (hg : g = .away) (h : e.creating) :=
    away_neutral (A := A) g e hg (.inr h)
  apply keeps_bind (creating_perform creating (e := .circuit (.recordSuccess provider)) trivial)
  intro _
  apply keeps_onlyIf
  apply keeps_creating creating (uses_recordCircuitTransition _ _ _ _)
  exact fun e he => Effect.creating_of_trying (.inr he)

theorem run_follows {cfg : Config} (within : cfg.coordinator.Within A) (c : Call) :
    ((c.run cfg).start {}).Follows ((discipline A).protocol c) ((discipline A).post c)
      ((discipline A).first c) := by
  apply start_follows
  cases c with
  | create data =>
    have keeps : Keeps (protocol A) (fun _ g => g = .away) (Call.run cfg (.create data)) :=
      keeps_bind (create_keeps away_neutral within data) fun _ => keeps_pure _
    apply wp_mono (keeps {} _ rfl)
    exact fun _ _ _ hg => .inl hg
  | refund paymentId amount =>
    show wp (protocol _) (Call.run cfg (.refund paymentId amount)) _ _ _
    simp only [Call.run, wp_bind]
    apply wp_mono (refund_wp cfg paymentId amount _)
    intro r s g hg
    cases r <;> exact .inr hg
  | recover provider =>
    have keeps : Keeps (protocol fun _ => False) (fun _ g => g = .away)
        (Call.run cfg (.recover provider)) :=
      keeps_bind (recover_keeps cfg provider) fun _ => keeps_pure _
    apply wp_mono (keeps {} _ rfl)
    exact fun _ _ _ hg => .inl hg

end Protocol

/-- A call asks for one lock, and is inside of one. -/
def places : Places Stage Uuid where
  waits := fun g paymentId => g = .asking paymentId
  holds := fun g paymentId => g = .inside paymentId

structure Inv (w : World) (running : Option Tid) (st : Statuses) : Prop where
  limit : ∀ paymentId, (w.process.refundLocks paymentId).limit = 1
  queues : places.Queues w.process.refundLocks running st

section Step

variable {cfg : Config} {profile : Profile} {s : ServiceState} {l : ServiceLabel} {t : Tid}
  {c : Call} {g m : Stage} {e : Effect} {w : World} {b : Bool} {v : Option Tid} {paymentId : Uuid}
  {A B : Effect → Prop}

theorem refundLocks_of_touches {w w' : World} (h : e.Touches w w')
    (other : ∀ a, e ≠ .refundLock a) : w'.process.refundLocks = w.process.refundLocks := by
  cases e with
  | refundLock a => exact absurd rfl (other a)
  | host e => obtain rfl | ⟨-, rfl⟩ := h <;> rfl
  | circuit e => obtain ⟨_, _, _, rfl⟩ := h; rfl
  | stats e => obtain ⟨_, _, rfl⟩ := h; rfl
  | provider e => obtain rfl | ⟨_, _, rfl⟩ := h <;> rfl
  | _ => obtain ⟨_, rfl⟩ := h; rfl

/-- The lock answers a call that has come to it, or that has waited for it. -/
theorem acquire_reply {r : Except Exn Unit}
    (h : Delivered (system cfg profile) s l t (.refundLock (.acquire paymentId)) (.reply r w)) :
    ∃ i lock, (s.running = some t ∧
        (s.world.process.refundLocks paymentId).enter t i = .reply r lock ∨
      s.running = none ∧ (s.world.process.refundLocks paymentId).resume t i = .reply r lock) ∧
      w.process.refundLocks = Function.update s.world.process.refundLocks paymentId lock := by
  obtain ⟨i, -, running, ha⟩ | ⟨i, -, idle, ha⟩ := h.answer
  · obtain ⟨p, hp, rfl⟩ := Answer.lift_reply ha.symm
    obtain ⟨lock, hl, rfl⟩ := Answer.lift_reply hp
    exact ⟨i, lock, .inl ⟨running, hl⟩, rfl⟩
  · obtain ⟨p, hp, rfl⟩ := Answer.lift_reply ha.symm
    obtain ⟨lock, hl, rfl⟩ := Answer.lift_reply hp
    exact ⟨i, lock, .inr ⟨idle, hl⟩, rfl⟩

theorem acquire_wait
    (h : Delivered (system cfg profile) s l t (.refundLock (.acquire paymentId)) (.wait w)) :
    ∃ i lock, s.running = some t ∧
      (s.world.process.refundLocks paymentId).enter t i = .wait lock ∧
      w.process.refundLocks = Function.update s.world.process.refundLocks paymentId lock := by
  obtain ⟨i, -, running, ha⟩ | ⟨i, -, -, ha⟩ := h.answer
  · obtain ⟨p, hp, rfl⟩ := Answer.lift_wait ha.symm
    obtain ⟨lock, hl, rfl⟩ := Answer.lift_wait hp
    exact ⟨i, lock, running, hl, rfl⟩
  · obtain ⟨p, hp, rfl⟩ := Answer.lift_wait ha.symm
    obtain ⟨lock, hl, rfl⟩ := Answer.lift_wait hp
    exact absurd hl Semaphore.resume_never_waits

theorem turn_of_delivered {a : Answer e.Reply World}
    (h : Delivered (system cfg profile) s l t e a) : s.running = some t ∨ s.running = none := by
  obtain ⟨-, -, running, -⟩ | ⟨-, -, idle, -⟩ := h.answer
  · exact .inl running
  · exact .inr idle

/-- A call that goes on runs, and one that has ended is away. -/
theorem on_of_goes (hg : Goes (discipline A) t c m b v) :
    v = some t ∨ v = none ∧ ∀ k, ¬places.waits m k := by
  cases hg with
  | on => exact .inl rfl
  | ended post =>
    refine .inr ⟨rfl, fun k hk => ?_⟩
    obtain rfl : m = .asking k := hk
    obtain h | h := post <;> cases h

theorem limits_update {locks : Uuid → Semaphore} {lock : Semaphore}
    (limit : ∀ k, (locks k).limit = 1) (same : lock.limit = (locks paymentId).limit) (k : Uuid) :
    (Function.update locks paymentId lock k).limit = 1 := by
  by_cases at_ : k = paymentId
  · subst at_
    rw [Function.update_self, same, limit]
  · rw [Function.update_of_ne at_, limit]

variable (inv : Inv s.world s.running ((discipline A).statuses s))
  (ht : (discipline A).statuses s t = some ⟨c, g, false⟩)

include inv ht

theorem inv_reply {r : e.Reply} (hok : ok B g e)
    (apart : ∀ a, ¬B (.refundLock a))
    (hd : Delivered (system cfg profile) s l t e (.reply r w))
    (hg : Goes (discipline A) t c (next g e r) b v) :
    Inv w v (Function.update ((discipline A).statuses s) t (some ⟨c, next g e r, b⟩)) := by
  have turn := turn_of_delivered hd
  have on := on_of_goes hg
  have stays (other : ∀ a, e ≠ .refundLock a) (same : next g e r = g)
      (out : ∀ k, ¬places.waits g k) :
      Inv w v (Function.update ((discipline A).statuses s) t (some ⟨c, next g e r, b⟩)) := by
    have locks := refundLocks_of_touches (reply_touches hd) other
    constructor
    · rw [locks]
      exact inv.limit
    · rw [locks]
      rw [same] at on ⊢
      exact inv.queues.stays turn ht on (fun k hk => absurd hk (out k)) fun _ => Iff.rfl
  cases g with
  | away =>
    apply stays
    · rintro a rfl
      obtain h | h := hok
      · exact apart a h
      · exact h
    · rfl
    · exact fun k hk => by cases hk
  | asking paymentId =>
    cases e with
    | refundLock a =>
      cases a with
      | acquire other =>
        obtain rfl : other = paymentId := hok
        obtain ⟨i, lock, answered, locks⟩ := acquire_reply hd
        constructor
        · rw [locks]
          apply limits_update inv.limit
          obtain ⟨-, hr⟩ | ⟨-, hr⟩ := answered
          · exact (Semaphore.enter_reply hr).1.limit
          · exact (Semaphore.resume_reply hr).1.limit
        · rw [locks]
          apply inv.queues.acquire ht _ _ answered on
          · intro k
            cases r with
            | error x => simp [places, next]
            | ok _ => simp [places, next, eq_comm]
          · simp [places, eq_comm]
          · simp [places]
      | release other => exact hok.elim
    | _ => exact hok.elim
  | inside paymentId =>
    by_cases released : ∃ a, e = .refundLock a
    · obtain ⟨a, rfl⟩ := released
      cases a with
      | acquire other => exact hok.elim
      | release other =>
        obtain rfl : other = paymentId := hok
        obtain rfl := release_lock_reply hd
        have same := (Semaphore.release_holders (s.world.process.refundLocks other) t).1
        constructor
        · exact limits_update inv.limit same
        · apply inv.queues.release ht _ turn _ on
          · simp [places, next]
          · simp [places]
          · simp [places, eq_comm]
    · have other (a : RefundLockEffect) : e ≠ .refundLock a := fun ha => released ⟨a, ha⟩
      have inside : refunding e := by
        cases e with
        | refundLock a => exact absurd rfl (other a)
        | _ => exact hok
      exact stays other (next_refunding inside r) fun k hk => by cases hk
  | left => exact hok.elim

theorem inv_wait (hok : ok B g e) (apart : ∀ a, ¬B (.refundLock a))
    (hd : Delivered (system cfg profile) s l t e (.wait w)) :
    Inv w none ((discipline A).statuses s) := by
  by_cases locking : ∃ a, e = .refundLock a
  · obtain ⟨a, rfl⟩ := locking
    cases a with
    | acquire paymentId =>
      obtain ⟨i, lock, running, hw, locks⟩ := acquire_wait hd
      have asking : g = .asking paymentId := by
        cases g with
        | away =>
          obtain h | h := hok
          · exact absurd h (apart _)
          · exact h.elim
        | asking other =>
          obtain rfl : paymentId = other := hok
          rfl
        | _ => exact hok.elim
      subst asking
      constructor
      · rw [locks]
        exact limits_update inv.limit (Semaphore.enter_wait hw).limit
      · rw [locks]
        apply inv.queues.enqueue ht _ _ running hw
        · simp [places, eq_comm]
        · simp [places]
    | release paymentId => exact absurd hd release_lock_never_waits
  · have other (a : RefundLockEffect) : e ≠ .refundLock a := fun ha => locking ⟨a, ha⟩
    have locks := refundLocks_of_touches (wait_touches hd) other
    constructor
    · rw [locks]
      exact inv.limit
    · rw [locks]
      apply inv.queues.suspend (turn_of_delivered hd) ht
      rintro k rfl
      cases e with
      | refundLock a => exact other a rfl
      | _ => exact hok

end Step

theorem maintains (cfg : Config) (profile : Profile) {A : Effect → Prop}
    (within : cfg.coordinator.Within A) (apart : ∀ a, ¬A (.refundLock a)) :
    Maintains (system cfg profile) (fun _ _ => True) (discipline A) Inv where
  follows := run_follows within
  call := fun {s t c b v} _ inv new hg => by
    refine ⟨inv.limit, inv.queues.call (.inr rfl) new (on_of_goes hg) fun k => ?_⟩
    cases c <;> simp [places, discipline]
  reply := fun _ inv ht hok hd =>
    ⟨trivial, fun _ _ hg => inv_reply inv ht hok (scope_apart apart _) hd hg⟩
  wait := fun _ inv ht hok hd => inv_wait inv ht hok (scope_apart apart _) hd
  outside := fun {s a w} _ inv h => by
    have locks := (outside_frame h).refundLocks
    constructor
    · rw [locks]
      exact inv.limit
    · rw [locks]
      exact inv.queues

theorem inv_initial (circuit : CircuitBreaker) (concurrency : List (Provider × ℕ)) :
    Inv (.initial circuit concurrency) none fun _ => none := by
  have fresh (paymentId : Uuid) :
      (World.initial circuit concurrency).process.refundLocks paymentId = Semaphore.make 1 :=
    Process.initial_eq (fun p => p.refundLocks paymentId) (fun _ _ _ => rfl) circuit concurrency
  constructor
  · intro paymentId
    rw [fresh]
    rfl
  · intro paymentId
    rw [fresh]
    apply (Semaphore.manned_make 1).congr
    · simp [Places.InLine]
    · simp [Places.Inside]

section Reached

variable {A : Effect → Prop} {s : ServiceState} {t u : Tid} {paymentId : Uuid}

/-- The stages a call can come to. -/
def Stage.Of : Call → Stage → Prop
  | .refund paymentId _, .asking other => other = paymentId
  | .refund paymentId _, .inside other => other = paymentId
  | .refund _ _, .left => True
  | .refund _ _, .away => False
  | _, g => g = .away

theorem next_of {c : Call} {g : Stage} (h : Stage.Of c g) (e : Effect) (r : e.Reply) :
    Stage.Of c (next g e r) := by
  cases c with
  | refund paymentId amount =>
    cases g with
    | away => exact h.elim
    | left => exact trivial
    | asking other =>
      cases e with
      | refundLock a => cases a <;> cases r <;> first | exact h | exact trivial
      | _ => exact h
    | inside other =>
      cases e with
      | refundLock a => cases a <;> first | exact h | exact trivial
      | _ => exact h
  | _ =>
    obtain rfl : g = .away := h
    exact rfl

theorem phase_of (T : ServiceTask) : Stage.Of T.call ((discipline A).phase T) := by
  have fold (trace : List ((e : Effect) × e.Reply)) {g : Stage} (h : Stage.Of T.call g) :
      Stage.Of T.call (trace.foldl (fun g ev => next g ev.1 ev.2) g) := by
    induction trace generalizing g with
    | nil => exact h
    | cons ev trace ih => exact ih (next_of h ev.1 ev.2)
  apply fold
  cases T.call <;> exact rfl

/-- A refund of the payment is under way that has come past its lock. -/
def Past (s : ServiceState) (paymentId : Uuid) (t : Tid) : Prop :=
  ∃ T amount e, s.tasks t = some T ∧ T.call = .refund paymentId amount ∧ T.code.head = some e ∧
    e ≠ .refundLock (.acquire paymentId)

/-- One refund of a payment at a time is past the lock, and as long as one waits for the lock
another is past it, or one of those who wait has been handed it. -/
structure Serialised (s : ServiceState) : Prop where
  exclusive : ∀ {t u paymentId}, Past s paymentId t → Past s paymentId u → t = u
  served : ∀ {t paymentId}, s.At t (.refundLock (.acquire paymentId)) → s.running ≠ some t →
    ∃ u, Past s paymentId u ∨ s.At u (.refundLock (.acquire paymentId)) ∧
      u ∈ (s.world.process.refundLocks paymentId).woken

variable (kept : (discipline A).Kept s)

include kept

theorem past_iff :
    Past s paymentId t ↔ places.Inside paymentId ((discipline A).statuses s) t := by
  constructor
  · rintro ⟨T, amount, e, task, call, head, beyond⟩
    refine ⟨_, (discipline A).statuses_of_task task, ?_⟩
    obtain ⟨k, code⟩ := Coroutine.perform_of_head head
    have follows := kept t T task
    rw [code] at follows
    have hok : ok (scope A T.call) ((discipline A).phase T) e := follows.1
    have of := phase_of (A := A) T
    rw [call] at of
    show (discipline A).phase T = .inside paymentId
    generalize (discipline A).phase T = g at hok of
    cases g with
    | away => exact of.elim
    | left => exact hok.elim
    | inside other =>
      obtain rfl : other = paymentId := of
      rfl
    | asking other =>
      obtain rfl : other = paymentId := of
      cases e with
      | refundLock a =>
        cases a with
        | acquire id =>
          obtain rfl : id = other := hok
          exact absurd rfl beyond
        | release id => exact hok.elim
      | _ => exact hok.elim
  · rintro ⟨x, hx, inside⟩
    obtain ⟨T, task, rfl⟩ := (discipline A).statuses_some hx
    have phase : (discipline A).phase T = .inside paymentId := inside
    have of := phase_of (A := A) T
    have follows := kept t T task
    rw [phase] at of follows
    obtain ⟨call, code, trace⟩ := T
    cases call with
    | refund other amount =>
      obtain rfl : paymentId = other := of
      cases code with
      | done a => exact follows.elim (fun h => by cases h) fun h => by cases h
      | perform e k =>
        refine ⟨_, amount, e, task, rfl, rfl, ?_⟩
        rintro rfl
        exact follows.1
    | _ => cases of

theorem asking_of_at (reached : s.At t (.refundLock (.acquire paymentId)))
    (apart : ∀ a, ¬A (.refundLock a)) :
    ∃ x, (discipline A).statuses s t = some x ∧ x.phase = .asking paymentId := by
  obtain ⟨T, task, head⟩ := reached
  refine ⟨_, (discipline A).statuses_of_task task, ?_⟩
  obtain ⟨k, code⟩ := Coroutine.perform_of_head head
  have follows := kept t T task
  rw [code] at follows
  have hok : ok (scope A T.call) ((discipline A).phase T) (.refundLock (.acquire paymentId)) :=
    follows.1
  show (discipline A).phase T = _
  generalize (discipline A).phase T = g at hok
  cases g with
  | away =>
    obtain h | h := hok
    · exact absurd h (scope_apart apart _ _)
    · exact h.elim
  | asking other =>
    obtain rfl : paymentId = other := hok
    rfl
  | _ => exact hok.elim

theorem at_of_asking {x : Status Call Stage} (hx : (discipline A).statuses s t = some x)
    (asking : x.phase = .asking paymentId) : s.At t (.refundLock (.acquire paymentId)) := by
  obtain ⟨T, task, rfl⟩ := (discipline A).statuses_some hx
  have phase : (discipline A).phase T = .asking paymentId := asking
  have follows := kept t T task
  rw [phase] at follows
  obtain ⟨call, code, trace⟩ := T
  cases code with
  | done a => exact follows.elim (fun h => by cases h) fun h => by cases h
  | perform e k =>
    refine ⟨_, task, ?_⟩
    have hok := follows.1
    cases e with
    | refundLock a =>
      cases a with
      | acquire other =>
        obtain rfl : other = paymentId := hok
        rfl
      | release other => exact hok.elim
    | _ => exact hok.elim

theorem serialised_of_inv (apart : ∀ a, ¬A (.refundLock a))
    (inv : Inv s.world s.running ((discipline A).statuses s)) : Serialised s := by
  constructor
  · intro t u paymentId ht hu
    have holder {x : Tid} (h : Past s paymentId x) :=
      ((inv.queues paymentId).held x).mpr ((past_iff kept).mp h)
    exact Semaphore.holder_unique (inv.limit paymentId) (holder ht) (holder hu)
  · intro t paymentId reached suspended
    obtain ⟨x, hx, asking⟩ := asking_of_at kept reached apart
    have waiting : places.InLine paymentId s.running ((discipline A).statuses s) t :=
      ⟨suspended, x, hx, asking⟩
    have positive : 0 < (s.world.process.refundLocks paymentId).limit := by
      rw [inv.limit]
      exact Nat.one_pos
    obtain ⟨u, woken, -, y, hy, line⟩ | ⟨u, inside⟩ :=
      (inv.queues paymentId).next positive waiting
    · exact ⟨u, .inr ⟨at_of_asking kept hy line, woken⟩⟩
    · exact ⟨u, .inl ((past_iff kept).mpr inside)⟩

end Reached

/-- Whatever a process is called for and whichever calls are cancelled, its refunds of one payment
take turns, and none of them waits for a lock that nobody has. -/
theorem refunds_serialised (cfg : Config) (profile : Profile) (circuit : CircuitBreaker)
    (concurrency : List (Provider × ℕ)) {s : ServiceState}
    (h : Reaches (system cfg profile) (fun _ _ => True) (.empty (.initial circuit concurrency)) s) :
    Serialised s := by
  have M := maintains cfg profile cfg.coordinator.within_coordinating fun _ => id
  obtain ⟨kept, inv⟩ := M.reaches_empty (inv_initial circuit concurrency) h
  exact serialised_of_inv kept (fun _ => id) inv

open Scenario in
/-- One refund waits for its provider, and another one for the lock. -/
theorem refunds_serialised_waiting : ∃ s : ServiceState, s.running = none ∧
    s.At 1 (.provider (.finishRefund "stripe" 0 40)) ∧ s.At 2 (.refundLock (.acquire 0)) ∧
    Serialised s := by
  let labels : List ServiceLabel :=
    paidRun 0 0 "a" ++ startRefund 1 0 (some 40) ++ [.call 2 (.refund 0 none), .enter 2 .go]
  have h : ∃ s ∈ run (system (service ["stripe"] 1) {}) labels (.empty (.initial fragile [])),
      s.running = none ∧ s.At 1 (.provider (.finishRefund "stripe" 0 40)) ∧
      s.At 2 (.refundLock (.acquire 0)) := by
    decide +kernel
  obtain ⟨s, moved, idle, first, second⟩ := h
  exact ⟨s, idle, first, second, refunds_serialised (service ["stripe"] 1) {} fragile []
    (run_reaches _ (throughout_of_forall _ (fun _ _ _ => trivial) _) moved)⟩

end PySwitch.Locks
