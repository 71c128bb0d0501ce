import PySwitch.LedgerSteps

namespace PySwitch.Ledger

open Async Program Service Scenario

theorem run_follows {profile : Profile} {cfg : Config} (reliable : Reliable profile cfg.coordinator)
    (c : Call) :
    ((c.run cfg).start {}).Follows (protocol profile) (post c) (first c) := by
  refine start_follows ?_
  cases c with
  | create data =>
    simp only [Call.run, wp_bind]
    refine wp_mono (create_wp reliable data) ?_
    rintro (x | payment) s g hg <;> exact hg
  | refund paymentId amount =>
    simp only [Call.run, wp_bind]
    refine wp_mono (refund_wp paymentId amount) ?_
    rintro (x | refund) s g hg <;> exact hg
  | recover provider =>
    have neutral (g : Stage) (e : Effect) (hg : g = .outside) (he : e.trying ∨ e.recording) :
        (protocol profile).ok g e ∧ ∀ r, (protocol profile).may g e r →
          (protocol profile).next g e r = .outside := by
      subst hg
      cases e with
      | host e => cases e <;> exact ⟨trivial, fun _ _ => rfl⟩
      | store e => cases e <;> first | exact ⟨trivial, fun _ _ => rfl⟩ | exact (he.elim id id).elim
      | provider e =>
        cases e <;> first | exact ⟨trivial, fun _ _ => rfl⟩ | exact (he.elim id id).elim
      | coordinator e => exact (he.elim id id).elim
      | redis e => exact (he.elim id id).elim
      | refundLock e => exact (he.elim id id).elim
      | _ => exact ⟨trivial, fun _ _ => rfl⟩
    have outside : Keeps (protocol profile) (fun _ g => g = .outside)
        (Service.recordSuccess cfg provider) :=
      keeps_bind (keeps_trying (neutral_hosting fun _ => neutral) trivial) fun _ =>
        keeps_onlyIf (keeps_recordCircuitTransition (fun _ => neutral) _ _ _)
    simp only [Call.run, wp_bind]
    refine wp_mono (outside _ _ rfl) ?_
    rintro (x | _) s g rfl <;> trivial

/-- Payments are created with a positive amount. -/
def Positive (_ : ServiceState) : ServiceLabel → Prop
  | .call _ (.create data) => 0 < data.amount
  | _ => True

instance (s : ServiceState) : DecidablePred (Positive s)
  | .call _ (.create data) => inferInstanceAs (Decidable (0 < data.amount))
  | .call _ (.refund _ _) => .isTrue trivial
  | .call _ (.recover _) => .isTrue trivial
  | .enter _ _ => .isTrue trivial
  | .resume _ _ => .isTrue trivial
  | .outside _ => .isTrue trivial

theorem inv_call {profile : Profile} {w : World} {st : Statuses} {t : Tid} {c : Call} {b : Bool}
    {v : Option Tid} (positive : ∀ data, c = .create data → 0 < data.amount) (inv : Inv w none st)
    (new : st t = none) (hg : Goes (discipline profile) t c (first c) b v) :
    Inv w v (Function.update st t (some ⟨c, first c, b⟩)) where
  books := inv.books
  good := fun hu => by
    obtain ⟨rfl, rfl⟩ | ⟨-, hu⟩ := update_cases hu
    · cases c with
      | create data =>
        exact {
          lock := nofun
          payment := nofun
          refunding := nofun
          draft := nofun
          ordered := fun h => by cases h; exact positive data rfl }
      | _ => exact ⟨nofun, nofun, nofun, nofun, nofun⟩
    · exact inv.good hu
  drafts := fun hu hu' hd hd' => by
    have first_draft {id : Uuid} {amount : ℤ} : first c ≠ .draft id amount := by
      cases c <;> exact nofun
    obtain ⟨-, rfl⟩ | ⟨-, old⟩ := update_cases hu
    · exact absurd hd first_draft
    · obtain ⟨-, rfl⟩ | ⟨-, old'⟩ := update_cases hu'
      · exact absurd hd' first_draft
      · exact inv.drafts old old' hd hd'
  pending := fun hu hp => by
    obtain ⟨rfl, rfl⟩ | ⟨-, hu⟩ := update_cases hu
    · exact goes_pending hg hp
    · cases inv.pending hu hp
  balance := fun id => by
    rw [outstanding_after hg, inv.balance id]
    have hd : (first c).due id = 0 := by cases c <;> rfl
    rw [hd]
    rfl

theorem inv_outside {a : Outside} {w w' : World} {st : Statuses} (inv : Inv w none st)
    (h : a.apply w = some w') : Inv w' none st := by
  have same : Same w w' := by
    cases a with
    | setProviderConcurrency provider limit =>
      cases h
      exact .of_eq rfl rfl rfl fun _ => rfl
    | tick elapsed =>
      obtain ⟨r, -, rfl⟩ := Option.map_eq_some_iff.mp h
      exact .of_eq rfl rfl rfl fun _ => rfl
  exact {
    books := same.books inv.books
    good := fun hu => same.good (inv.good hu)
    drafts := inv.drafts
    pending := inv.pending
    balance := fun id => by rw [same.returned, same.recorded]; exact inv.balance id }

theorem maintains {cfg : Config} {profile : Profile} (memory : profile.storage = .memory)
    (reliable : Reliable profile cfg.coordinator) :
    Maintains (system cfg profile) Positive (discipline profile) Inv where
  follows := run_follows reliable
  call := fun {s t c b v} meets inv new hg =>
    inv_call (fun data hc => by subst hc; exact meets) inv new hg
  reply := fun _ inv ht hok h =>
    ⟨reply_may inv ht memory hok h, fun _ _ hg => inv_reply inv ht memory hok h hg⟩
  wait := fun _ inv ht hok h => inv_wait inv ht memory hok h
  outside := fun _ inv h => inv_outside inv h

theorem inv_initial (circuit : CircuitBreaker) (concurrency : List (Provider × ℕ)) :
    Inv (.initial circuit concurrency) none fun _ => none where
  books := {
    locks := fun id => Process.initial_eq (fun p => (p.refundLocks id).limit) (fun _ _ _ => rfl)
      circuit concurrency
    fresh := nofun
    identified := nofun
    consistent := nofun }
  good := nofun
  drafts := nofun
  pending := nofun
  balance := fun _ => rfl

def unsavedAfter (b : Bool) : (e : Effect) → e.Reply → Bool
  | .provider (.finishRefund _ _ _), .ok _ => true
  | .store (.save _), _ => false
  | .store (.saveWithEvents _ _), _ => false
  | _, _ => b

/-- A provider has returned a refund, and the call has not saved it yet. -/
def unsaved (trace : List ((e : Effect) × e.Reply)) : Bool :=
  trace.foldl (fun b event => unsavedAfter b event.1 event.2) false

/-- No refund is between its provider's return and its save. -/
def Settled (s : ServiceState) : Prop := ∀ t T, s.tasks t = some T → unsaved T.trace = false

theorem unsavedAfter_of_pending {g : Stage} {b : Bool} (hb : g.pending → b = true) {e : Effect}
    {r : e.Reply} (h : (next g e r).pending) : unsavedAfter b e r = true := by
  unfold unsavedAfter
  split
  · rfl
  · cases g <;> exact h.elim
  · cases g <;> exact h.elim
  · rename_i other _ _
    refine hb ?_
    unfold next at h
    split at h <;> first | exact h | exact h.elim | trivial | exact (other _ _ _ _ rfl HEq.rfl).elim

theorem unsaved_of_pending {profile : Profile} {T : ServiceTask}
    (h : ((discipline profile).phase T).pending) : unsaved T.trace = true := by
  have fold (trace : List ((e : Effect) × e.Reply)) (g : Stage) (b : Bool)
      (hb : g.pending → b = true)
      (hg : (trace.foldl (fun g event => next g event.1 event.2) g).pending) :
      trace.foldl (fun b event => unsavedAfter b event.1 event.2) b = true := by
    induction trace generalizing g b with
    | nil => exact hb hg
    | cons event trace ih => exact ih _ _ (unsavedAfter_of_pending hb) hg
  refine fold T.trace (first T.call) false (fun hp => ?_) h
  cases hc : T.call <;> rw [hc] at hp <;> exact hp.elim

/-- A refund is in no such stage before it has saved. -/
def Stage.touched : Stage → Prop
  | .outside => True
  | .ordered _ => True
  | .draft _ _ => True
  | .settled _ => True
  | .unlocked refunded => refunded = true
  | _ => False

theorem touched_next {g : Stage} (hg : g.touched) (e : Effect) (r : e.Reply) :
    (next g e r).touched := by
  unfold next
  split <;> first | exact trivial | exact hg.elim | exact hg | rfl

theorem touched_of_foldl (trace : List ((e : Effect) × e.Reply)) {g : Stage} (hg : g.touched) :
    (trace.foldl (fun g event => next g event.1 event.2) g).touched := by
  induction trace generalizing g with
  | nil => exact hg
  | cons event trace ih => exact ih (touched_next hg _ _)

theorem store_of_touches {e : Effect} (he : ∀ a, e ≠ .store a) {w w' : World}
    (h : e.Touches w w') : w'.store = w.store := by
  cases e with
  | host e => obtain rfl | ⟨-, rfl⟩ := h <;> rfl
  | circuit e => obtain ⟨_, _, _, rfl⟩ := h; rfl
  | stats e => obtain ⟨_, _, rfl⟩ := h; rfl
  | provider e => obtain rfl | ⟨_, _, rfl⟩ := h <;> rfl
  | store e => exact absurd rfl (he e)
  | _ => obtain ⟨_, rfl⟩ := h; rfl

theorem not_store_or (e : Effect) : (∃ a, e = .store a) ∨ ∀ a, e ≠ .store a := by
  cases e with
  | store a => exact .inl ⟨a, rfl⟩
  | _ => exact .inr fun _ => Effect.noConfusion

section Untouched

variable {cfg : Config} {profile : Profile} (memory : profile.storage = .memory)
  {s s' : ServiceState} {l : ServiceLabel} {t : Tid}

include memory

theorem store_of_reply {g : Stage} {e : Effect} {r : e.Reply} {w : World}
    (hok : ok profile g e) (h : Delivered (system cfg profile) s l t e (.reply r w))
    (clean : ¬ (next g e r).touched) : w.store = s.world.store := by
  obtain ⟨a, rfl⟩ | he := not_store_or e
  · obtain ⟨-, rfl⟩ := store_reply memory h
    cases a with
    | save p =>
      refine absurd ?_ clean
      cases g <;> trivial
    | saveWithEvents p events =>
      refine absurd ?_ clean
      cases g <;> trivial
    | append events =>
      refine absurd ?_ clean
      cases g <;> trivial
    | _ => rfl
  · exact store_of_touches he (reply_touches h)

theorem store_of_wait {e : Effect} {w : World}
    (h : Delivered (system cfg profile) s l t e (.wait w)) : w.store = s.world.store := by
  obtain ⟨a, rfl⟩ | he := not_store_or e
  · exact absurd h (store_never_waits memory)
  · exact store_of_touches he (wait_touches h)

/-- A step of a task leaves the store alone, if the stage it leads to is not touched. -/
theorem store_of_step (kept : (discipline profile).Kept s)
    (moved : step (system cfg profile) l s = some s') (task : l.task = some t)
    (clean : ∀ T, s'.tasks t = some T → ¬ ((discipline profile).phase T).touched) :
    s'.world.store = s.world.store := by
  cases step_moves _ moved with
  | call idle new => rfl
  | @reply l u T e k r w hT code delivered =>
    obtain rfl : u = t := by
      obtain ⟨_, rfl, -, -⟩ | ⟨_, rfl, -, -⟩ := delivered.answer <;> exact Option.some.inj task
    have hok := kept u T hT
    rw [code] at hok
    refine store_of_reply memory hok.1 delivered ?_
    have := clean ⟨T.call, k r, T.trace ++ [⟨e, r⟩]⟩ (by simp [State.put])
    rwa [(discipline profile).phase_reply] at this
  | wait hT code delivered => exact store_of_wait memory delivered
  | outside idle moved => cases task

end Untouched

/-- What the books say of a payment when no refund of it is under way. -/
structure Balanced (p : Payment) (returned : ℤ) : Prop where
  nonneg : 0 ≤ p.refundedAmount
  bounded : p.refundedAmount ≤ p.amount
  recorded : p.refundedAmount = (p.refunds.map Refund.amount).sum
  returned : p.refundedAmount = returned
  refunded : p.status = .refunded ↔ p.refundedAmount = p.amount
  failed : p.status = .failed → p.refunds = []

/-- In every state in which no refund is between its provider's return and its save, the refunds
of every payment balance; and no step of a refund that raises changes the store. -/
theorem refund_ledger {cfg : Config} {profile : Profile} (memory : profile.storage = .memory)
    (reliable : Reliable profile cfg.coordinator) (circuit : CircuitBreaker)
    (concurrency : List (Provider × ℕ)) {s : ServiceState}
    (h : Reaches (system cfg profile) Positive (.empty (.initial circuit concurrency)) s) :
    (Settled s → ∀ id p, s.world.store.payments id = some p →
      Balanced p (returned id s.world.log)) ∧
    (∀ s₀ l s₁ t T paymentId amount x,
      Reaches (system cfg profile) Positive (.empty (.initial circuit concurrency)) s₀ →
      step (system cfg profile) l s₀ = some s₁ → Reaches (system cfg profile) Positive s₁ s →
      l.task = some t → s.tasks t = some T → T.call = .refund paymentId amount →
      T.result = some (.error x) → s₁.world.store = s₀.world.store) := by
  have M := maintains memory reliable
  have first := inv_initial circuit concurrency
  obtain ⟨kept, inv⟩ := M.reaches_empty first h
  refine ⟨fun settled id p stored => ?_, ?_⟩
  · have consistent := inv.books.consistent stored
    have none_due : outstanding s.running ((discipline profile).statuses s) id = 0 := by
      unfold outstanding
      split
      · rename_i u hu
        obtain ⟨t, running, hu⟩ := Option.bind_eq_some_iff.mp hu
        obtain ⟨T, task, rfl⟩ := (discipline profile).statuses_some hu
        refine Stage.due_of_not_pending (fun hp => ?_) id
        have := unsaved_of_pending hp
        rw [settled t T task] at this
        cases this
      · rfl
    have balance := inv.balance id
    rw [none_due] at balance
    have was : recorded s.world id = p.refundedAmount := by simp only [recorded, stored]
    exact ⟨consistent.nonneg, consistent.bounded, consistent.total, by omega,
      consistent.refunded, consistent.failed⟩
  · intro s₀ l s₁ t T paymentId amount x h₀ moved h₁ task hT call result
    refine store_of_step memory (M.reaches_empty first h₀).1 moved task fun T₁ hT₁ touched => ?_
    obtain ⟨T', hT', call', events, trace⟩ := h₁.task hT₁
    obtain rfl := Option.some.inj (hT.symm.trans hT')
    have phase : ((discipline profile).phase T).touched := by
      have hc : T₁.call = T.call := call'.symm
      simp only [Discipline.phase, ← trace, List.foldl_append, ← hc]
      exact touched_of_foldl events touched
    have follows := kept t T hT
    obtain ⟨c, code, events'⟩ := T
    obtain rfl : c = .refund paymentId amount := call
    cases code with
    | done a =>
      obtain rfl : a = .error x := Option.some.inj result
      obtain hp | hp := follows <;> rw [hp] at phase
      · exact phase
      · cases phase
    | perform e k => cases result

/-- A payment of 100 of which 40 are refunded; then a refund of 70 is refused. -/
def refundRun : List ServiceLabel :=
  paidRun 0 0 "a" ++ startRefund 1 0 (some 40) ++ finishRefund 1 1 ++
  [.call 2 (.refund 0 (some 70)), .enter 2 .go, .enter 2 .go, .enter 2 .go]

theorem refund_ledger_partial : ∃ (s : ServiceState) (p : Payment),
    s.world.store.payments 0 = some p ∧ Balanced p 40 ∧ p.status = .succeeded := by
  have h : ∃ s ∈ run (system (service ["stripe"] 1) {}) refundRun (.empty (.initial fragile [])),
      (∀ t ∈ called refundRun, ∀ T ∈ s.tasks t, unsaved T.trace = false) ∧
      returned 0 s.world.log = 40 ∧
      ∃ p ∈ s.world.store.payments 0, p.status = .succeeded := by
    decide +kernel
  obtain ⟨s, moved, saved, total, p, stored, status⟩ := h
  have positive : ∀ l ∈ refundRun, ∀ s, Positive s l := fun l hl s =>
    (by decide : ∀ l ∈ refundRun, Positive (.empty (.initial fragile [])) l) l hl
  have balanced := (refund_ledger rfl (reliable_direct rfl) fragile []
    (run_reaches _ (throughout_of_forall _ positive _) moved)).1
    (fun t T task => saved t (run_called _ moved task) T task) 0 p stored
  exact ⟨s, p, stored, total ▸ balanced, status⟩

end PySwitch.Ledger
