import PySwitch.RefundLedger

namespace PySwitch.PaymentHistory

open Async Program Service Ledger Scenario

/-- A payment after refunds, each of them covered by what was left of it. -/
inductive Refunded (p : Payment) : Payment → Prop
  | unchanged : Refunded p p
  | again {q : Payment} {refund : Refund} (before : Refunded p q)
    (covered : Refunding q refund.amount) : Refunded p (applyRefund q refund)

variable {p q p' : Payment}

theorem Refunded.trans (h : Refunded p q) (h' : Refunded q p') : Refunded p p' := by
  induction h' with
  | unchanged => exact h
  | again _ covered ih => exact .again ih covered

theorem Refunded.consistent (h : Refunded p q) (consistent : Consistent p) : Consistent q := by
  induction h with
  | unchanged => exact consistent
  | again _ covered ih => exact ih.applyRefund covered

/-- A payment that has failed or has been refunded. -/
def Closed (p : Payment) : Prop := p.status = .failed ∨ p.status = .refunded

theorem closed_not_refunding (consistent : Consistent p) (closed : Closed p) {amount : ℤ} :
    ¬Refunding p amount := by
  rintro ⟨status, positive, covered⟩
  obtain failed | refunded := closed
  · simp [refundable, failed] at status
  · have whole := consistent.refunded.mp refunded
    omega

/-- How the record of a payment may change: refunds that it covers are added to it and nothing
else is written, and a payment that is closed stays as it is. -/
structure History (p p' : Payment) : Prop where
  fields : p' = { p with
    refundedAmount := p'.refundedAmount
    refunds := p'.refunds
    status := p'.status }
  refunds : ∃ added : List Refund, p'.refunds = p.refunds ++ added ∧
    (∀ refund ∈ added, 0 < refund.amount) ∧
    p'.refundedAmount = p.refundedAmount + (added.map Refund.amount).sum
  covered : p'.refundedAmount ≤ p.amount
  status : p'.status = p.status ∨ p.status = .succeeded ∧ p'.status = .refunded
  closed : Closed p → p' = p

theorem history_refl (consistent : Consistent p) : History p p where
  fields := rfl
  refunds := ⟨[], (List.append_nil _).symm, by simp, by simp⟩
  covered := consistent.bounded
  status := .inl rfl
  closed := fun _ => rfl

theorem History.again {refund : Refund} (h : History p q) (consistent : Consistent q)
    (covered : Refunding q refund.amount) : History p (applyRefund q refund) := by
  have opened : q.status = .succeeded := by
    have status := covered.status
    have other : q.status ≠ .refunded :=
      fun refunded => closed_not_refunding consistent (.inr refunded) covered
    simpa [refundable, other] using status
  constructor
  · have fields := h.fields
    generalize q.refundedAmount = a, q.refunds = l, q.status = st at fields
    subst fields
    rfl
  · obtain ⟨added, refunds, positive, total⟩ := h.refunds
    refine ⟨added ++ [refund], ?_, ?_, ?_⟩
    · rw [← List.append_assoc, ← refunds]
      rfl
    · intro r hr
      obtain old | new := List.mem_append.mp hr
      · exact positive r old
      · obtain rfl := List.mem_singleton.mp new
        exact covered.positive
    · show q.refundedAmount + refund.amount = _
      simp only [List.map_append, List.map_cons, List.map_nil, List.sum_append, List.sum_cons,
        List.sum_nil]
      omega
  · have same : q.amount = p.amount := by rw [h.fields]
    have left := covered.covered
    show q.refundedAmount + refund.amount ≤ p.amount
    omega
  · have was : p.status = .succeeded := by
      obtain same | ⟨-, refunded⟩ := h.status
      · rw [← same, opened]
      · rw [opened] at refunded
        cases refunded
    by_cases whole : q.refundedAmount + refund.amount = q.amount
    · exact .inr ⟨was, by simp [applyRefund, whole]⟩
    · exact .inl (by simp [applyRefund, whole, was, opened])
  · intro closed
    obtain rfl := h.closed closed
    exact absurd covered (closed_not_refunding consistent closed)

theorem Refunded.history (h : Refunded p p') (consistent : Consistent p) : History p p' := by
  induction h with
  | unchanged => exact history_refl consistent
  | again before covered ih => exact ih.again (before.consistent consistent) covered

section Step

variable {cfg : Config} {profile : Profile} (memory : profile.storage = .memory)
  {s s' : ServiceState} {l : ServiceLabel} {t : Tid} {id : Uuid}

include memory

/-- What a save of a task does to the payments that are stored. -/
theorem save_refunded {w : World} {e : StoreEffect} {r : e.Reply} {T : ServiceTask}
    (inv : Inv s.world s.running ((discipline profile).statuses s)) (task : s.tasks t = some T)
    (saves : (s.world.store.commit e).payments =
      Function.update s.world.store.payments q.id (some q))
    (saveable : ((discipline profile).phase T).saveable q)
    (h : Delivered (system cfg profile) s l t (.store e) (.reply r w))
    (stored : s.world.store.payments id = some p) :
    ∃ p', w.store.payments id = some p' ∧ Refunded p p' := by
  obtain ⟨-, rfl⟩ := store_reply memory h
  have good := inv.good ((discipline profile).statuses_of_task task)
  have after : (Effect.setStore s.world (s.world.store.commit e)).store.payments =
      Function.update s.world.store.payments q.id (some q) := saves
  rw [after]
  by_cases same : id = q.id
  · subst same
    refine ⟨q, Function.update_self .., ?_⟩
    simp only [Discipline.status] at good
    generalize (discipline profile).phase T = g at saveable good
    cases g with
    | draft id amount =>
      obtain ⟨-, new, -⟩ := good.draft rfl
      rw [← saveable.1.id_eq, stored] at new
      cases new
    | applying before amount =>
      have was : s.world.store.payments before.id = some before := good.payment rfl
      have covered : Refunding before amount := good.refunding rfl
      obtain ⟨refund, rfl, rfl⟩ := saveable
      obtain rfl := Option.some.inj (stored.symm.trans was)
      exact .again .unchanged covered
    | _ => exact saveable.elim
  · exact ⟨p, by rw [Function.update_of_ne same, stored], .unchanged⟩

theorem step_refunded (kept : (discipline profile).Kept s)
    (inv : Inv s.world s.running ((discipline profile).statuses s))
    (moved : step (system cfg profile) l s = some s')
    (stored : s.world.store.payments id = some p) :
    ∃ p', s'.world.store.payments id = some p' ∧ Refunded p p' := by
  have untouched {w : World} (same : w.store.payments = s.world.store.payments) :
      ∃ p', w.store.payments id = some p' ∧ Refunded p p' :=
    ⟨p, by rw [same, stored], .unchanged⟩
  cases step_moves _ moved with
  | call idle new => exact untouched rfl
  | wait task code delivered => exact untouched (by rw [store_of_wait memory delivered])
  | @reply l t T e k r w task code delivered =>
    have hok := kept t T task
    rw [code] at hok
    obtain ⟨a, rfl⟩ | other := not_store_or e
    · cases a with
      | save q =>
        have allowed : ok profile ((discipline profile).phase T) (.store (.save q)) := hok.1
        exact save_refunded memory inv task rfl (ok_save allowed) delivered stored
      | saveWithEvents q events =>
        have allowed : ok profile ((discipline profile).phase T)
          (.store (.saveWithEvents q events)) := hok.1
        exact save_refunded memory inv task rfl (ok_saveWithEvents allowed) delivered stored
      | _ =>
        obtain ⟨-, rfl⟩ := store_reply memory delivered
        exact untouched rfl
    · exact untouched (by rw [← store_of_touches other (reply_touches delivered)]; rfl)
  | @outside a w idle applied =>
    cases a with
    | setProviderConcurrency provider limit =>
      cases applied
      exact untouched rfl
    | tick elapsed =>
      obtain ⟨r, -, rfl⟩ := Option.map_eq_some_iff.mp applied
      exact untouched rfl

end Step

/-- From any state a process can be in, and whatever it is called for after that: no payment is
lost, none is changed but by refunds that it covers, and none that has failed or has been refunded
is changed at all. -/
theorem payments_only_refunded {cfg : Config} {profile : Profile}
    (memory : profile.storage = .memory) (reliable : Reliable profile cfg.coordinator)
    (circuit : CircuitBreaker) (concurrency : List (Provider × ℕ)) {s s' : ServiceState}
    (before : Reaches (system cfg profile) Positive (.empty (.initial circuit concurrency)) s)
    (after : Reaches (system cfg profile) Positive s s') {id : Uuid} {p : Payment}
    (stored : s.world.store.payments id = some p) :
    ∃ p', s'.world.store.payments id = some p' ∧ Refunded p p' ∧ History p p' := by
  have M := maintains memory reliable
  have first := inv_initial circuit concurrency
  have consistent : Consistent p := (M.reaches_empty first before).2.books.consistent stored
  have found : ∃ p', s'.world.store.payments id = some p' ∧ Refunded p p' := by
    induction after with
    | refl => exact ⟨p, stored, .unchanged⟩
    | tail reached meets moved ih =>
      obtain ⟨q, here, refunded⟩ := ih
      obtain ⟨kept, inv⟩ := M.reaches_empty first (before.trans reached)
      obtain ⟨p', there, again⟩ := step_refunded memory kept inv moved here
      exact ⟨p', there, refunded.trans again⟩
  obtain ⟨p', there, refunded⟩ := found
  exact ⟨p', there, refunded, refunded.history consistent⟩

/-- A refund of 40 of a payment of 100. -/
def fortyRefunded : List ServiceLabel :=
  startRefund 1 0 (some 40) ++ finishRefund 1 1

theorem payments_only_refunded_partial : ∃ (s s' : ServiceState) (p p' : Payment),
    s.world.store.payments 0 = some p ∧ s'.world.store.payments 0 = some p' ∧
    p.refundedAmount = 0 ∧ p'.refundedAmount = 40 ∧ Refunded p p' ∧
    History p p' := by
  have h : ∃ s ∈ run (system (service ["stripe"] 1) {}) (paidRun 0 0 "a")
        (.empty (.initial fragile [])),
      (∃ p ∈ s.world.store.payments 0, p.refundedAmount = 0) ∧
      ∃ s' ∈ run (system (service ["stripe"] 1) {}) fortyRefunded s,
        ∃ p' ∈ s'.world.store.payments 0, p'.refundedAmount = 40 := by
    decide +kernel
  obtain ⟨s, paid, ⟨p, stored, none_back⟩, s', refunded, p', stored', back⟩ := h
  have positive (ls : List ServiceLabel)
      (h : ∀ l ∈ ls, Positive (.empty (.initial fragile [])) l) :
      ∀ l ∈ ls, ∀ s, Positive s l := fun l hl s => h l hl
  obtain ⟨q, there, history⟩ := payments_only_refunded rfl (reliable_direct rfl) fragile []
    (run_reaches _ (throughout_of_forall _ (positive _ (by decide)) _) paid)
    (run_reaches _ (throughout_of_forall _ (positive _ (by decide)) _) refunded) stored
  obtain rfl := Option.some.inj (stored'.symm.trans there)
  exact ⟨s, s', p, p', stored, stored', none_back, back, history⟩

end PySwitch.PaymentHistory
