import PySwitch.DeliveryOrder
import PySwitch.Listing
import PySwitch.RefundIds

namespace PySwitch.ListOrder

open Async Service InMemoryPaymentStore SqlAlchemyPaymentRepository SqlRoundTrip Listing

/-- The rows of a payment are the same in both databases. -/
structure SameRows (db db' : Database) (id : Uuid) : Prop where
  payments : db'.payments id = db.payments id
  attempts : db'.attemptsOf id = db.attemptsOf id
  refunds : db'.refundsOf id = db.refundsOf id

theorem SameRows.rows {db db' : Database} {p : Payment} (same : SameRows db db' p.id)
    (rows : Rows db p) : Rows db' p :=
  ⟨same.payments.trans rows.row, same.attempts ▸ rows.attempts, same.refunds ▸ rows.refunds⟩

theorem SameRows.absent {db db' : Database} {id : Uuid} (same : SameRows db db' id)
    (absent : Absent db id) : Absent db' id :=
  ⟨same.payments.trans absent.row, same.attempts.trans absent.attempts,
    same.refunds.trans absent.refunds⟩

section Save

variable {m : InMemoryPaymentStore} {db : Database} {p : Payment} {id : Uuid}
  (events : List EventEnvelope)

/-- A save leaves the rows of the other payments as they are. -/
theorem saved_sameRows (own : ∀ item ∈
      (unitOfWork p events (db.merchants p.merchantId) (found db p.id)).refunds,
      item.paymentId = p.id) (ne : id ≠ p.id) : SameRows db (saved db p events) id where
  payments := by
    unfold saved unitOfWork
    cases found db p.id with
    | none => simp [Database.write, PaymentWrite.apply, newRow, ne]
    | some found => simp [Database.write, PaymentWrite.apply, ne]
  attempts := by
    unfold saved
    rw [attemptsOf_write]
    simp only [unitOfWork, filter_foreign newAttempts_own ne, List.append_nil]
  refunds := by
    unfold saved
    rw [refundsOf_write, filter_foreign own ne, List.append_nil]

theorem new_own (absent : Absent db p.id) (unrefunded : p.refunds = []) : ∀ item ∈
    (unitOfWork p events (db.merchants p.merchantId) (found db p.id)).refunds,
    item.paymentId = p.id := by
  have none : found db p.id = none := by
    rw [found, absent.row]
    rfl
  intro item hitem
  rw [none] at hitem
  simp [unitOfWork, newRefunds, unrefunded] at hitem

theorem refunded_own {refund : Refund} (rows : Rows db p) (own : refund.paymentId = p.id)
    (fresh : refund.id ∉ p.refunds.map Refund.id) : ∀ item ∈
    (unitOfWork (applyRefund p refund) events (db.merchants p.merchantId) (found db p.id)).refunds,
    item.paymentId = p.id := by
  intro item hitem
  rw [rows.found] at hitem
  have new := newRefunds_applied rows.refunds fresh
  simp only [unitOfWork, Option.map_some, Option.getD_some, new] at hitem
  obtain rfl := List.mem_singleton.mp hitem
  exact own

theorem saved_order (mirrors : Mirrors m db) :
    (m.save p).order = if p.id ∈ m.order then m.order else m.order ++ [p.id] := by
  have known : p.id ∈ m.order ↔ (m.payments p.id).isSome = true := by
    rw [mirrors.listed, Option.isSome_iff_ne_none]
  unfold InMemoryPaymentStore.save
  simp only [known]

/-- The store and the database carry out the same save. -/
theorem mirrors_saved (mirrors : Mirrors m db) (own : ∀ item ∈
      (unitOfWork p events (db.merchants p.merchantId) (found db p.id)).refunds,
      item.paymentId = p.id) (rows : Rows (saved db p events) p) :
    Mirrors (m.save p) (saved db p events) where
  stored := by
    intro id q hq
    obtain ⟨rfl, rfl⟩ | ⟨ne, old⟩ := update_cases hq
    · exact ⟨rfl, rows⟩
    · obtain ⟨rfl, before⟩ := mirrors.stored old
      exact ⟨rfl, (saved_sameRows events own ne).rows before⟩
  absent := by
    intro id missing
    by_cases same : id = p.id
    · subst same
      simp [InMemoryPaymentStore.save] at missing
    · have old : m.payments id = none := by
        simpa [InMemoryPaymentStore.save, same] using missing
      exact (saved_sameRows events own same).absent (mirrors.absent old)
  listed := by
    intro id
    rw [saved_order mirrors]
    by_cases same : id = p.id
    · subst same
      split <;> simp [InMemoryPaymentStore.save, *]
    · split <;> simp [InMemoryPaymentStore.save, same, mirrors.listed]
  nodup := by
    rw [saved_order mirrors]
    split
    · exact mirrors.nodup
    · rename_i new
      rw [List.nodup_append]
      refine ⟨mirrors.nodup, List.nodup_singleton _, ?_⟩
      rintro a ha b hb rfl
      obtain rfl := List.mem_singleton.mp hb
      exact new ha

end Save

/-- A call of `save` or `save_with_events`. -/
structure Save where
  payment : Payment
  events : List EventEnvelope

/-- The saves that a run has carried out of a store of one process. -/
def saveOf : Effect → Option Save
  | .store (.save payment) => some ⟨payment, []⟩
  | .store (.saveWithEvents payment events) => some ⟨payment, events⟩
  | _ => none

def saveAt (s : ServiceState) : ServiceLabel → Option Save
  | .enter t _ => (s.tasks t).bind fun T => T.code.head.bind saveOf
  | _ => none

def saves (cfg : Config) (profile : Profile) : List ServiceLabel → ServiceState → List Save
  | [], _ => []
  | l :: ls, s => (saveAt s l).toList ++
    match step (system cfg profile) l s with
    | some s' => saves cfg profile ls s'
    | none => []

/-- The repository carries out the same saves, one after the other. -/
def replay (calls : List Save) (db : Database) : Database :=
  calls.foldl (fun db call => (alone (SqlAlchemyPaymentRepository.saveWithEvents call.payment
    call.events) db).2) db

/-- The payments of some saves, in the order in which each was first saved. -/
def firstSaved (calls : List Save) : List Uuid :=
  (calls.map fun call => call.payment.id).eraseDups

theorem replay_concat (calls : List Save) (call : Save) (db : Database) :
    replay (calls ++ [call]) db = saved (replay calls db) call.payment call.events := by
  rw [replay, List.foldl_append, List.foldl_cons, List.foldl_nil, save_alone]
  rfl

/-- The store has carried out these saves, and a database that has done so too mirrors it. -/
structure Tracks (done : List Save) (m : InMemoryPaymentStore) : Prop where
  mirrors : Mirrors m (replay done .empty)
  order : m.order = firstSaved done

theorem tracks_empty : Tracks [] .empty where
  mirrors := ⟨nofun, fun _ => ⟨rfl, rfl, rfl⟩, by simp [InMemoryPaymentStore.empty],
    List.nodup_nil⟩
  order := rfl

theorem Tracks.same {done : List Save} {m m' : InMemoryPaymentStore} (h : Tracks done m)
    (payments : m'.payments = m.payments) (order : m'.order = m.order) : Tracks done m' where
  mirrors := by
    constructor
    · intro id p stored
      exact h.mirrors.stored (payments ▸ stored)
    · intro id missing
      exact h.mirrors.absent (payments ▸ missing)
    · intro id
      rw [order, payments]
      exact h.mirrors.listed
    · exact order ▸ h.mirrors.nodup
  order := order.trans h.order

theorem Tracks.save {done : List Save} {m : InMemoryPaymentStore} {p : Payment}
    (h : Tracks done m) (events : List EventEnvelope)
    (legal : RefundIds.Legal m p) : Tracks (done ++ [⟨p, events⟩]) (m.save p) where
  mirrors := by
    rw [replay_concat]
    cases legal with
    | new missing unrefunded =>
      have absent := h.mirrors.absent missing
      apply mirrors_saved events h.mirrors (new_own events absent unrefunded)
      apply saved_new events absent
      rw [unrefunded]
      exact nofun
    | refunded stored own fresh =>
      obtain ⟨-, rows⟩ := h.mirrors.stored stored
      exact mirrors_saved events h.mirrors (refunded_own events rows own fresh)
        (saved_refunded events rows own fresh)
  order := by
    have known : p.id ∈ m.order ↔ p.id ∈ done.map fun call => call.payment.id := by
      rw [h.order, firstSaved, List.mem_eraseDups]
    have first : (done.map fun call => call.payment.id).eraseDups = m.order := h.order.symm
    rw [saved_order h.mirrors, firstSaved, List.map_append, List.map_cons, List.map_nil,
      DeliveryOrder.eraseDups_concat, first]
    simp only [known]

section Runs

variable {cfg : Config} {profile : Profile} (memory : profile.storage = .memory)
  (reliable : Ledger.Reliable profile cfg.coordinator)
  {circuit : CircuitBreaker} {concurrency : List (Provider × ℕ)} {s s' : ServiceState}
  {l : ServiceLabel} {t : Tid}

include memory

theorem saveAt_delivered {e : Effect} {a : Answer e.Reply World}
    (h : Delivered (system cfg profile) s l t e a) (answered : a ≠ .refuse) :
    saveAt s l = saveOf e := by
  obtain ⟨T, task, head⟩ := h.reached
  obtain ⟨i, rfl, -, -⟩ | ⟨i, rfl, -, answer⟩ := h.answer
  · simp only [saveAt, task, head, Option.bind_some]
  · cases e with
    | store e =>
      simp only [system, Effect.resume, memory] at answer
      exact absurd answer answered
    | _ => rfl

theorem tracks_reply {e : Effect} {r : e.Reply} {w : World} {done : List Save}
    (h : Delivered (system cfg profile) s l t e (.reply r w)) (tracks : Tracks done s.world.store)
    (legal : ∀ p, Booking.saved e = some p → RefundIds.Legal s.world.store p) :
    Tracks (done ++ (saveAt s l).toList) w.store := by
  rw [saveAt_delivered memory h nofun]
  have unsaved {m : InMemoryPaymentStore} (none : saveOf e = none)
      (payments : m.payments = s.world.store.payments) (order : m.order = s.world.store.order) :
      Tracks (done ++ (saveOf e).toList) m := by
    rw [none, Option.toList_none, List.append_nil]
    exact tracks.same payments order
  cases e with
  | store a =>
    obtain ⟨-, rfl⟩ := store_reply memory h
    cases a with
    | save p => exact tracks.save [] (legal p rfl)
    | saveWithEvents p events => exact (tracks.save events (legal p rfl)).same rfl rfl
    | _ => exact unsaved rfl rfl rfl
  | _ =>
    have store : w.store = s.world.store := (reply_touches h).store fun _ => Effect.noConfusion
    exact unsaved rfl (by rw [store]) (by rw [store])

include reliable

theorem tracks_step (reached : RefundIds.Reached cfg profile circuit concurrency s)
    (moved : step (system cfg profile) l s = some s') {done : List Save}
    (tracks : Tracks done s.world.store) :
    Tracks (done ++ (saveAt s l).toList) s'.world.store := by
  have unsaved {m : InMemoryPaymentStore} (none : saveAt s l = none) (same : m = s.world.store) :
      Tracks (done ++ (saveAt s l).toList) m := by
    rw [none, Option.toList_none, List.append_nil, same]
    exact tracks
  cases step_moves _ moved with
  | call idle new => exact unsaved rfl rfl
  | reply task code delivered =>
    exact tracks_reply memory delivered tracks fun p saved =>
      reached.legal memory reliable delivered.reached saved
  | @wait l t T e k w task code delivered =>
    have store : ∀ a, e ≠ .store a := by
      rintro a rfl
      exact store_never_waits memory delivered
    have none : saveOf e = none := by
      cases e with
      | store a => exact absurd rfl (store a)
      | _ => rfl
    exact unsaved ((saveAt_delivered memory delivered nofun).trans none)
      ((wait_touches delivered).store store)
  | outside idle stepped => exact unsaved rfl (outside_frame stepped).store

theorem tracks_run {ls : List ServiceLabel}
    (reached : RefundIds.Reached cfg profile circuit concurrency s)
    (positive : Throughout (system cfg profile) Ledger.Positive ls s)
    (h : run (system cfg profile) ls s = some s') {done : List Save}
    (tracks : Tracks done s.world.store) :
    Tracks (done ++ saves cfg profile ls s) s'.world.store := by
  induction ls generalizing s done with
  | nil =>
    cases h
    rwa [saves, List.append_nil]
  | cons l ls ih =>
    obtain ⟨u, moved, rest⟩ := Option.bind_eq_some_iff.mp h
    have next := tracks_step memory reliable reached moved tracks
    have last := ih (reached.tail positive.1 moved) (positive.2 u moved) rest next
    simpa only [saves, moved, List.append_assoc] using last

/-- After the same saves both repositories list the same payments in the same order, exactly when
of any two payments that the listing selects the one first saved earlier was built earlier. -/
theorem lists_alike {ls : List ServiceLabel}
    (positive : Throughout (system cfg profile) Ledger.Positive ls
      (.empty (.initial circuit concurrency)))
    (h : run (system cfg profile) ls (.empty (.initial circuit concurrency)) = some s)
    (distinct : Distinct s.world.store) (f : ListFilter) :
    let calls := saves cfg profile ls (.empty (.initial circuit concurrency))
    Alike s.world.store (replay calls .empty) f ↔
      BuiltInOrder s.world.store (firstSaved calls) f := by
  intro calls
  have tracks := tracks_run memory reliable .refl positive h tracks_empty
  rw [List.nil_append] at tracks
  rw [← tracks.order]
  exact alike_iff tracks.mirrors distinct f

end Runs

section Instances

open Scenario

/-- The second payment is built a second after the first one, and saved before it. -/
def overtakenRun : List ServiceLabel :=
  create 0 0 (card "a") 1 ++ ask 0 0 ++ start 0 ++ paidRun 1 1 "b" ++ returns 0 "reference" ++
  recordSuccess 0 2 ++ finish 0 2

theorem overtaken_differs : ∃ s : ServiceState,
    Throughout (system (service ["stripe"] 1) {}) Ledger.Positive overtakenRun
      (.empty (.initial fragile [])) ∧
    run (system (service ["stripe"] 1) {}) overtakenRun (.empty (.initial fragile [])) = some s ∧
    Distinct s.world.store ∧
    ¬ Alike s.world.store
      (replay (saves (service ["stripe"] 1) {} overtakenRun (.empty (.initial fragile []))) .empty)
      {} := by
  have h : ∃ s ∈ run (system (service ["stripe"] 1) {}) overtakenRun
      (.empty (.initial fragile [])),
      Throughout (system (service ["stripe"] 1) {}) Ledger.Positive overtakenRun
        (.empty (.initial fragile [])) ∧
      (s.world.store.values.map Payment.createdAt).Nodup ∧
      ¬ SortedBy.Increasing Payment.createdAt (s.world.store.list {}) := by
    decide +kernel
  obtain ⟨s, moved, positive, nodup, disordered⟩ := h
  have tracks := tracks_run rfl (Ledger.reliable_direct rfl) .refl positive moved tracks_empty
  rw [List.nil_append] at tracks
  have distinct := distinct_of_values tracks.mirrors nodup
  refine ⟨s, positive, moved, distinct, fun alike => disordered ?_⟩
  rw [increasing_iff tracks.mirrors]
  exact (alike_iff tracks.mirrors distinct {}).mp alike

/-- Two payments are under way at a time. They are saved in the order they were built, and the
first one is refunded. -/
def orderlyRun : List ServiceLabel :=
  create 0 0 (card "a") 1 ++ ask 0 0 ++ start 0 ++ create 1 1 (card "b") 1 ++ ask 1 1 ++
  start 1 ++ returns 0 "reference" ++ recordSuccess 0 2 ++ finish 0 2 ++ returns 1 "reference" ++
  recordSuccess 1 3 ++ finish 1 3 ++ startRefund 2 0 (some 40) ++ finishRefund 2 4

theorem lists_alike_orderly : ∃ s : ServiceState,
    (s.world.store.list { status := some "SUCCEEDED" }).length = 2 ∧
    Alike s.world.store
      (replay (saves (service ["stripe"] 1) {} orderlyRun (.empty (.initial fragile []))) .empty)
      { status := some "SUCCEEDED" } := by
  have h : ∃ s ∈ run (system (service ["stripe"] 1) {}) orderlyRun (.empty (.initial fragile [])),
      Throughout (system (service ["stripe"] 1) {}) Ledger.Positive orderlyRun
        (.empty (.initial fragile [])) ∧
      (s.world.store.values.map Payment.createdAt).Nodup ∧
      (s.world.store.list { status := some "SUCCEEDED" }).length = 2 ∧
      SortedBy.Increasing Payment.createdAt
        (s.world.store.list { status := some "SUCCEEDED" }) := by
    decide +kernel
  obtain ⟨s, moved, positive, nodup, length, increasing⟩ := h
  have reliable : Ledger.Reliable {} (service ["stripe"] 1).coordinator :=
    Ledger.reliable_direct rfl
  have tracks := tracks_run rfl reliable .refl positive moved tracks_empty
  rw [List.nil_append] at tracks
  have distinct := distinct_of_values tracks.mirrors nodup
  refine ⟨s, length, (lists_alike rfl reliable positive moved distinct _).mpr ?_⟩
  rw [← tracks.order, ← increasing_iff tracks.mirrors]
  exact increasing

end Instances

end PySwitch.ListOrder
