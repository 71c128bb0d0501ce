import PySwitch.Columns
import PySwitch.SortedBy
import PySwitch.SqlRoundTrip

namespace PySwitch

/-- What a listing is restricted to. The bounds are instants, as those of an offset-aware
`datetime`. -/
structure ListFilter where
  merchantId : Option String := none
  status : Option String := none
  createdAfter : Option Seconds := none
  createdBefore : Option Seconds := none

namespace InMemoryPaymentStore

/-- The values of the dictionary of payments, in its order. -/
def values (s : InMemoryPaymentStore) : List Payment := s.order.filterMap s.payments

def selects (f : ListFilter) (p : Payment) : Bool :=
  (f.merchantId.all fun merchantId => p.merchantId = merchantId) &&
  (f.status.all fun status => p.status.value = status) &&
  (f.createdAfter.all fun bound => bound ≤ p.createdAt) &&
  (f.createdBefore.all fun bound => p.createdAt ≤ bound)

def list (s : InMemoryPaymentStore) (f : ListFilter) : List Payment := s.values.filter (selects f)

end InMemoryPaymentStore

namespace SqlAlchemyPaymentRepository

/-- The clauses that are added to the query. -/
def clauses (f : ListFilter) : List (PaymentRow → Bool) :=
  (f.merchantId.map fun id (row : PaymentRow) => decide (row.merchantId = id)).toList
  ++ (f.status.map fun status (row : PaymentRow) => decide (row.status.value = status)).toList
  ++ (f.createdAfter.map fun bound (row : PaymentRow) => decide (bound ≤ row.createdAt)).toList
  ++ (f.createdBefore.map fun bound (row : PaymentRow) => decide (row.createdAt ≤ bound)).toList

/-- The rows that a query can return: all that meet its clauses, ordered by their creation. -/
structure Answers (db : Database) (f : ListFilter) (rows : List PaymentRow) : Prop where
  mem : ∀ row, row ∈ rows ↔
    db.payments row.id = some row ∧ ∀ clause ∈ clauses f, clause row = true
  nodup : rows.Nodup
  ordered : rows.Pairwise fun a b => a.createdAt ≤ b.createdAt

/-- The payment of a row, with the rows of its relations. -/
def loaded (db : Database) (row : PaymentRow) : Payment :=
  LoadedPayment.toDomain ⟨row, db.attemptsOf row.id, db.refundsOf row.id⟩

/-- What `list` can return. -/
def Lists (db : Database) (f : ListFilter) (result : List Payment) : Prop :=
  ∃ rows, Answers db f rows ∧
    List.Forall₂ (fun row p => SqlRoundTrip.Rearranged (loaded db row) p) rows result

end SqlAlchemyPaymentRepository

namespace Listing

open InMemoryPaymentStore SqlAlchemyPaymentRepository SqlRoundTrip

/-- The two repositories list the same payments in the same order. -/
def Alike (m : InMemoryPaymentStore) (db : Database) (f : ListFilter) : Prop :=
  (∃ result, Lists db f result) ∧
    ∀ result, Lists db f result → List.Forall₂ Stored (m.list f) result

theorem clauses_newRow (f : ListFilter) (p : Payment) :
    (∀ clause ∈ clauses f, clause (newRow p) = true) ↔ selects f p = true := by
  obtain ⟨merchantId, status, createdAfter, createdBefore⟩ := f
  unfold clauses selects
  cases merchantId <;> cases status <;> cases createdAfter <;> cases createdBefore <;>
    simp [newRow, and_assoc]

/-- The database has stored what the store holds. -/
structure Mirrors (m : InMemoryPaymentStore) (db : Database) : Prop where
  stored : ∀ {id p}, m.payments id = some p → p.id = id ∧ Rows db p
  absent : ∀ {id}, m.payments id = none → Absent db id
  listed : ∀ {id}, id ∈ m.order ↔ m.payments id ≠ none
  nodup : m.order.Nodup

/-- No two stored payments were built at one time. -/
def Distinct (m : InMemoryPaymentStore) : Prop :=
  ∀ p q, m.payments p.id = some p → m.payments q.id = some q → p.createdAt = q.createdAt →
    p.id = q.id

/-- Of two selected payments the one that comes first in the order was built first. -/
def BuiltInOrder (m : InMemoryPaymentStore) (order : List Uuid) (f : ListFilter) : Prop :=
  ∀ p q, m.payments p.id = some p → m.payments q.id = some q → selects f p = true →
    selects f q = true → [p.id, q.id].Sublist order → p.createdAt < q.createdAt

theorem map_eq_of_forall₂ {α β γ : Type} {R : α → β → Prop} {f : α → γ} {g : β → γ} {xs : List α}
    {ys : List β} (h : List.Forall₂ R xs ys) (same : ∀ a b, R a b → f a = g b) :
    xs.map f = ys.map g := by
  rw [← List.forall₂_eq_eq_eq, List.forall₂_map_left_iff, List.forall₂_map_right_iff]
  exact h.imp same

section Mirrored

variable {m : InMemoryPaymentStore} {db : Database} (mirrors : Mirrors m db)

include mirrors

theorem mem_values {p : Payment} : p ∈ m.values ↔ m.payments p.id = some p := by
  unfold values
  rw [List.mem_filterMap]
  constructor
  · rintro ⟨id, -, stored⟩
    rwa [(mirrors.stored stored).1]
  · intro stored
    exact ⟨p.id, mirrors.listed.mpr (by rw [stored]; nofun), stored⟩

theorem values_ids : m.values.map Payment.id = m.order := by
  have all : ∀ id ∈ m.order, ∃ p, m.payments id = some p := fun id hid =>
    Option.ne_none_iff_exists'.mp (mirrors.listed.mp hid)
  unfold values
  generalize m.order = order at *
  induction order with
  | nil => rfl
  | cons id order ih =>
    obtain ⟨p, stored⟩ := all id (List.mem_cons_self ..)
    rw [List.filterMap_cons_some stored, List.map_cons, (mirrors.stored stored).1,
      ih fun id hid => all id (List.mem_cons_of_mem _ hid)]

theorem list_ids_nodup (f : ListFilter) : ((m.list f).map Payment.id).Nodup := by
  have sub : ((m.list f).map Payment.id).Sublist (m.values.map Payment.id) :=
    List.filter_sublist.map _
  rw [values_ids mirrors] at sub
  exact mirrors.nodup.sublist sub

theorem mem_list {f : ListFilter} {p : Payment} :
    p ∈ m.list f ↔ m.payments p.id = some p ∧ selects f p = true := by
  rw [list, List.mem_filter, mem_values mirrors]

theorem distinct_of_values (nodup : (m.values.map Payment.createdAt).Nodup) : Distinct m := by
  intro p q hp hq same
  have equal := List.inj_on_of_nodup_map nodup ((mem_values mirrors).mpr hp)
    ((mem_values mirrors).mpr hq) same
  exact congrArg Payment.id equal

omit mirrors in
theorem eq_of_id {p q : Payment} (hp : m.payments p.id = some p) (hq : m.payments q.id = some q)
    (same : p.id = q.id) : p = q := by
  rw [same] at hp
  exact Option.some.inj (hp.symm.trans hq)

omit mirrors in
theorem list_sublist (f : ListFilter) : (m.list f).Sublist m.values := List.filter_sublist

/-- The listing is ordered by creation when the payments were saved in that order. -/
theorem increasing_iff (f : ListFilter) :
    SortedBy.Increasing Payment.createdAt (m.list f) ↔ BuiltInOrder m m.order f := by
  constructor
  · intro increasing p q hp hq sp sq before
    rw [← values_ids mirrors, List.sublist_map_iff] at before
    obtain ⟨pair, sub, ids⟩ := before
    obtain ⟨a, b, rfl⟩ : ∃ a b, pair = [a, b] := by
      apply List.length_eq_two.mp
      simpa using (congrArg List.length ids).symm
    simp only [List.map_cons, List.map_nil, List.cons.injEq, and_true] at ids
    have stored {x : Payment} (hx : x ∈ [a, b]) : m.payments x.id = some x :=
      (mem_values mirrors).mp (sub.subset hx)
    obtain rfl := eq_of_id hp (stored (by simp)) ids.1
    obtain rfl := eq_of_id hq (stored (by simp)) ids.2
    apply increasing.forall_sublist
    have kept : ([p, q].filter (selects f)).Sublist (m.list f) := sub.filter _
    simpa [sp, sq] using kept
  · intro built
    apply List.pairwise_of_forall_sublist
    intro a b sub
    obtain ⟨ha, sa⟩ := (mem_list mirrors).mp (sub.subset (by simp : a ∈ [a, b]))
    obtain ⟨hb, sb⟩ := (mem_list mirrors).mp (sub.subset (by simp : b ∈ [a, b]))
    apply built a b ha hb sa sb
    rw [← values_ids mirrors]
    exact (sub.trans (list_sublist f)).map Payment.id

theorem row_iff {row : PaymentRow} : db.payments row.id = some row ↔
    ∃ p, m.payments p.id = some p ∧ newRow p = row := by
  constructor
  · intro found
    cases stored : m.payments row.id with
    | none => cases (mirrors.absent stored).row.symm.trans found
    | some p =>
      obtain ⟨same, rows⟩ := mirrors.stored stored
      refine ⟨p, same ▸ stored, ?_⟩
      have row := rows.row
      rw [same] at row
      exact Option.some.inj (row.symm.trans found)
  · rintro ⟨p, stored, rfl⟩
    exact (mirrors.stored stored).2.row

theorem newRows_answer {f : ListFilter}
    (increasing : SortedBy.Increasing Payment.createdAt (m.list f)) :
    Answers db f ((m.list f).map newRow) where
  mem := by
    intro row
    rw [List.mem_map, row_iff mirrors]
    constructor
    · rintro ⟨p, hp, rfl⟩
      obtain ⟨stored, selected⟩ := (mem_list mirrors).mp hp
      exact ⟨⟨p, stored, rfl⟩, (clauses_newRow f p).mpr selected⟩
    · rintro ⟨⟨p, stored, rfl⟩, selected⟩
      exact ⟨p, (mem_list mirrors).mpr ⟨stored, (clauses_newRow f p).mp selected⟩, rfl⟩
  nodup := by
    have nodup := list_ids_nodup mirrors f
    apply List.Nodup.of_map PaymentRow.id
    rwa [List.map_map]
  ordered := List.pairwise_map.mpr (increasing.imp fun lt => le_of_lt lt)

theorem answers_eq {f : ListFilter} {rows : List PaymentRow}
    (increasing : SortedBy.Increasing Payment.createdAt (m.list f)) (answers : Answers db f rows) :
    rows = (m.list f).map newRow := by
  have expected := newRows_answer mirrors increasing
  have perm : rows.Perm ((m.list f).map newRow) := by
    rw [List.perm_ext_iff_of_nodup answers.nodup expected.nodup]
    exact fun row => (answers.mem row).trans (expected.mem row).symm
  have arranged : SortedBy.Arranges PaymentRow.createdAt ((m.list f).map newRow) rows :=
    ⟨perm, answers.ordered⟩
  exact arranged.eq (List.pairwise_map.mpr increasing)

/-- The two listings agree when the payments were first saved in the order they were built. -/
theorem alike_iff (distinct : Distinct m) (f : ListFilter) :
    Alike m db f ↔ BuiltInOrder m m.order f := by
  rw [← increasing_iff mirrors]
  constructor
  · rintro ⟨⟨result, lists⟩, all⟩
    have stored := all result lists
    obtain ⟨rows, answers, loaded⟩ := lists
    have read : (m.list f).map Payment.createdAt = result.map Payment.createdAt :=
      map_eq_of_forall₂ stored fun p q h => (congrArg Payment.createdAt h.fields).symm
    have found : rows.map PaymentRow.createdAt = result.map Payment.createdAt :=
      map_eq_of_forall₂ loaded fun row p h => (congrArg Payment.createdAt h.fields).symm
    have ordered : ((m.list f).map Payment.createdAt).Pairwise (· ≤ ·) := by
      rw [read, ← found, List.pairwise_map]
      exact answers.ordered
    have apart : (m.list f).Pairwise fun p q => p.id ≠ q.id :=
      List.pairwise_map.mp (list_ids_nodup mirrors f)
    apply (List.Pairwise.and apart (List.pairwise_map.mp ordered)).imp_of_mem
    rintro p q hp hq ⟨ne, le⟩
    apply lt_of_le_of_ne le
    intro same
    exact ne (distinct p q ((mem_list mirrors).mp hp).1 ((mem_list mirrors).mp hq).1 same)
  · intro increasing
    have answers := newRows_answer mirrors increasing
    constructor
    · refine ⟨((m.list f).map newRow).map (loaded db), _, answers, ?_⟩
      rw [List.forall₂_map_right_iff]
      exact List.forall₂_same.mpr fun row _ => .refl _
    · rintro result ⟨rows, found, read⟩
      obtain rfl := answers_eq mirrors increasing found
      rw [List.forall₂_map_left_iff] at read
      have rows : ∀ p ∈ m.list f, Rows db p := fun p hp =>
        (mirrors.stored ((mem_list mirrors).mp hp).1).2
      have both := (List.forall₂_and_left _ _).mpr ⟨rows, read⟩
      exact both.imp fun p q h => h.1.loaded.rearranged h.2

end Mirrored

end Listing

end PySwitch
