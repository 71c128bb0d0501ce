import PySwitch.SqlTransaction

namespace PySwitch.SqlSaves

open Async Program
open SqlAlchemyPaymentRepository (unitOfWork newAttempt newAttempts newRefunds newRow)

/-- How far a save has come, with what it has read. -/
inductive Stage where
  | start
  | missing
  | seeking (merchant : Option Seconds)
  | selected (merchant : Option Seconds) (row : PaymentRow)
  | joined (merchant : Option Seconds) (row : PaymentRow) (attempts : List PaymentAttemptRow)
  | writing (merchant : Option Seconds) (found : Option LoadedPayment) (done rest : List Key)
  | stored
  | failed

namespace Stage

/-- What the save has found of its merchant, once it is stored or inserted. -/
def merchant : Stage → Option (Option Seconds)
  | .seeking merchant => some merchant
  | .selected merchant _ => some merchant
  | .joined merchant _ _ => some merchant
  | .writing merchant _ _ _ => some merchant
  | _ => none

/-- The save has missed its merchant and is not over. -/
def Missed (g : Stage) : Prop := g = .missing ∨ g.merchant = some none

def Going (g : Stage) : Prop := g ≠ .stored ∧ g ≠ .failed

/-- The save has not come to its payment yet. -/
def Early : Stage → Prop
  | .start | .missing | .seeking _ => True
  | _ => False

/-- The row of the payment that the save has selected. -/
def row : Stage → Option PaymentRow
  | .selected _ row => some row
  | .joined _ row _ => some row
  | .writing _ found _ _ => found.map LoadedPayment.row
  | _ => none

/-- The attempts of the payment that the save has read. -/
def attempts : Stage → List PaymentAttemptRow
  | .joined _ _ attempts => attempts
  | .writing _ found _ _ => (found.map LoadedPayment.attempts).getD []
  | _ => []

def done : Stage → List Key
  | .writing _ _ done _ => done
  | _ => []

/-- The keys a save can have pending. -/
def Holds (g : Stage) (c : SaveCall) (key : Key) : Prop :=
  g.merchant = some none ∧ key = .merchant c.payment.merchantId ∨ key ∈ g.done

end Stage

/-- The insertions that a save makes of what it has read. -/
def SaveCall.writes (c : SaveCall) (found : Option LoadedPayment) : List Key :=
  insertions (unitOfWork c.payment c.events none found)

variable (c : SaveCall)

def ok : Stage → SessionEffect → Prop
  | .start, .execute (.selectMerchant id) => id = c.payment.merchantId
  | .missing, .insert key => key = .merchant c.payment.merchantId
  | .seeking _, .execute (.selectPayment id) => id = c.payment.id
  | .selected _ row, .execute (.selectAttempts id) => id = row.id
  | .joined _ row _, .execute (.selectRefunds id) => id = row.id
  | .writing _ _ _ (next :: _), .insert key => key = next
  | .writing merchant found _ [], .execute (.commit work) =>
    work = unitOfWork c.payment c.events merchant found
  | _, _ => False

def next : Stage → (e : SessionEffect) → e.Reply → Stage
  | .start, .execute (.selectMerchant _), none => .missing
  | .start, .execute (.selectMerchant _), some createdAt => .seeking (some createdAt)
  | .missing, .insert _, .ok _ => .seeking none
  | .seeking merchant, .execute (.selectPayment _), none =>
    .writing merchant none [] (c.writes none)
  | .seeking merchant, .execute (.selectPayment _), some row => .selected merchant row
  | .selected merchant row, .execute (.selectAttempts _), attempts => .joined merchant row attempts
  | .joined merchant row attempts, .execute (.selectRefunds _), refunds =>
    .writing merchant (some ⟨row, attempts, refunds⟩) [] (c.writes (some ⟨row, attempts, refunds⟩))
  | .writing merchant found done (key :: rest), .insert _, .ok _ =>
    .writing merchant found (done ++ [key]) rest
  | .writing _ _ _ [], .execute (.commit _), _ => .stored
  | _, _, _ => .failed

def protocol : Protocol SessionEffect SessionEffect.Reply Stage :=
  ⟨ok c, fun _ _ _ => True, next c⟩

def discipline : Discipline SaveCall SessionEffect SessionEffect.Reply (Except Exn Unit) Stage :=
  ⟨protocol, fun _ => .start, fun _ r g => r = .ok () ∧ g = .stored ∨ g = .failed⟩

/-- How a save ends. -/
abbrev Ends (r : Except Exn Unit) (g : Stage) : Prop := r = .ok () ∧ g = .stored ∨ g = .failed

variable {c}

theorem write_follows {merchant : Option Seconds} {found : Option LoadedPayment}
    {done rest : List Key} :
    wp (protocol c) (do
        flush rest
        execute (.commit (unitOfWork c.payment c.events merchant found)))
      (fun r _ g => Ends r g) () (.writing merchant found done rest) := by
  induction rest generalizing done with
  | nil => exact ⟨rfl, fun _ _ => .inl ⟨rfl, rfl⟩⟩
  | cons key rest ih =>
    refine ⟨rfl, fun r _ => ?_⟩
    cases r with
    | error x => exact .inr rfl
    | ok u => exact ih

theorem seek_follows {merchant : Option Seconds} :
    wp (protocol c) (do
        let row ← execute (.selectPayment c.payment.id)
        let found ← load row
        flush (insertions (unitOfWork c.payment c.events merchant found))
        execute (.commit (unitOfWork c.payment c.events merchant found)))
      (fun r _ g => Ends r g) () (.seeking merchant) := by
  refine ⟨rfl, fun row _ => ?_⟩
  cases row with
  | none => exact write_follows
  | some row => exact ⟨rfl, fun attempts _ => ⟨rfl, fun refunds _ => write_follows⟩⟩

theorem save_follows (c : SaveCall) :
    (sessions.program c).Follows (protocol c) (discipline.post c) .start := by
  apply start_follows
  refine ⟨rfl, fun merchant _ => ?_⟩
  cases merchant with
  | some createdAt => exact seek_follows
  | none =>
    refine ⟨rfl, fun r _ => ?_⟩
    cases r with
    | error x => exact .inr rfl
    | ok u => exact seek_follows

abbrev Statuses : Type := Tid → Option (Status SaveCall Stage)

/-- What holds of a save at a stage. -/
structure Fine (w : Sessions) (t : Tid) (c : SaveCall) (g : Stage) : Prop where
  missed : g.Missed → (t, c.payment.merchantId) ∈ w.missed ∧
    w.database.merchants c.payment.merchantId = none ∧
    ∀ u ≠ t, (u, c.payment.merchantId) ∉ w.missed
  storable : g.Going → Storable w.database c
  row : ∀ row, g.row = some row → w.database.payments c.payment.id = some row
  attempts : ∀ row ∈ g.attempts, row ∈ w.database.attempts ∧ row.paymentId = c.payment.id
  writing : ∀ merchant found done rest, g = .writing merchant found done rest →
    done ++ rest = c.writes found ∧
    (found = none → w.database.payments c.payment.id = none) ∧
    ∀ item ∈ c.payment.refunds, Has w.database (.refund item.id) ↔
      item.id ∈ ((found.map LoadedPayment.refunds).getD []).map Refund.id
  stored : g = .stored → Stored w.database c
  unfailed : g ≠ .failed

theorem fine_early {w : Sessions} {t : Tid} {c : SaveCall} {g : Stage} (early : g.Early)
    (missed : g.Missed → (t, c.payment.merchantId) ∈ w.missed ∧
      w.database.merchants c.payment.merchantId = none ∧
      ∀ u ≠ t, (u, c.payment.merchantId) ∉ w.missed)
    (storable : Storable w.database c) : Fine w t c g := by
  have row : g.row = none := by cases g <;> first | rfl | exact early.elim
  have attempts : g.attempts = [] := by cases g <;> first | rfl | exact early.elim
  constructor
  · exact missed
  · exact fun _ => storable
  · rw [row]
    exact fun _ h => by cases h
  · rw [attempts]
    exact fun _ h => by cases h
  · rintro merchant found done rest rfl
    exact early.elim
  · rintro rfl
    exact early.elim
  · rintro rfl
    exact early.elim

structure Inv (calls : Tid → SaveCall) (w : Sessions) (_ : Option Tid) (st : Statuses) : Prop where
  pending : ∀ {u key}, (u, key) ∈ w.pending →
    ∃ x, st u = some x ∧ x.phase.Holds (calls u) key
  fine : ∀ {t x}, st t = some x → x.call = calls t ∧ Fine w t (calls t) x.phase
  waiting : ∀ {t}, st t = none → Storable w.database (calls t)

section Keys

variable {c : SaveCall} {found : Option LoadedPayment} {key : Key}

theorem writes_sublist (c : SaveCall) (found : Option LoadedPayment) :
    (c.writes found).Sublist c.keys := by
  have refunds : ((newRefunds c.payment ((found.map LoadedPayment.refunds).getD [])).map
      fun item => Key.refund item.id).Sublist (c.payment.refunds.map fun item => .refund item.id) :=
    List.Sublist.map _ List.filter_sublist
  have tail := refunds.append (List.Sublist.refl (c.events.map fun event => Key.event event.id))
  cases found with
  | none => exact (tail.cons_cons _).cons_cons _
  | some found => exact (tail.cons _).cons _

theorem mem_writes : key ∈ c.writes found ↔
    found = none ∧ (key = .payment c.payment.id ∨ key = .idempotency c.payment.key) ∨
    (∃ item ∈ c.payment.refunds,
      item.id ∉ ((found.map LoadedPayment.refunds).getD []).map Refund.id ∧
        key = .refund item.id) ∨
    ∃ event ∈ c.events, key = .event event.id := by
  cases found <;>
    simp [SaveCall.writes, insertions, unitOfWork, newRefunds, newRow, Payment.key, eq_comm,
      and_assoc, or_assoc]

theorem writes_free {db : Database} (storable : Storable db c)
    (unfound : found = none → db.payments c.payment.id = none)
    (known : ∀ item ∈ c.payment.refunds, Has db (.refund item.id) →
      item.id ∈ ((found.map LoadedPayment.refunds).getD []).map Refund.id)
    (h : key ∈ c.writes found) : ¬Has db key := by
  obtain ⟨none, rfl | rfl⟩ | ⟨item, mem, new, rfl⟩ | ⟨event, mem, rfl⟩ := mem_writes.mp h
  · exact not_not.mpr (unfound none)
  · exact not_not.mpr (storable.unused (unfound none)).1
  · exact fun stored => new (known item mem stored)
  · exact storable.events event mem

end Keys

/-- What a save sees when another one commits. -/
structure Beside (c : SaveCall) (db db' : Database) : Prop where
  payment : db'.payments c.payment.id = db.payments c.payment.id
  key : db'.keys c.payment.key = db.keys c.payment.key
  has : ∀ key ∈ c.keys, Has db' key → Has db key
  refunds : ∀ item ∈ c.payment.refunds, ∀ row ∈ db'.refunds, row.id = item.id → row ∈ db.refunds
  kept : ∀ id, Has db (.refund id) → Has db' (.refund id)
  attempts : db.attempts ⊆ db'.attempts
  outbox : db.outbox ⊆ db'.outbox

section Commit

variable {c d : SaveCall} {db db' : Database} {merchant : Option Seconds}
  {found : Option LoadedPayment}

theorem refund_mem_keys {item : Refund} (h : item ∈ c.payment.refunds) :
    .refund item.id ∈ c.keys := by
  simp only [SaveCall.keys, List.mem_cons, List.mem_append, List.mem_map]
  exact .inr (.inr (.inl ⟨item, h, rfl⟩))

theorem event_mem_keys {event : EventEnvelope} (h : event ∈ c.events) :
    .event event.id ∈ c.keys := by
  simp only [SaveCall.keys, List.mem_cons, List.mem_append, List.mem_map]
  exact .inr (.inr (.inr ⟨event, h, rfl⟩))

theorem Storable.beside (h : Storable db c) (beside : Beside c db db') : Storable db' c where
  identified := by
    rw [beside.payment]
    exact h.identified
  unused := by
    rw [beside.payment, beside.key]
    intro absent
    obtain ⟨key, refunds⟩ := h.unused absent
    exact ⟨key, fun item mem stored =>
      refunds item mem (beside.has _ (refund_mem_keys mem) stored)⟩
  own := by
    intro item mem row stored same
    exact h.own item mem row (beside.refunds item mem row stored same) same
  events := by
    intro event mem stored
    exact h.events event mem (beside.has _ (event_mem_keys mem) stored)

theorem Stored.beside (h : Stored db c) (beside : Beside c db db') : Stored db' c where
  payment := by
    rw [beside.payment]
    exact h.payment
  attempts := by
    intro item mem
    obtain ⟨row, stored, same⟩ := h.attempts item mem
    exact ⟨row, beside.attempts stored, same⟩
  refunds := fun item mem => beside.kept _ (h.refunds item mem)
  events := fun event mem => beside.outbox (h.events event mem)

/-- The database after the commit of a save. -/
def SaveCall.commit (c : SaveCall) (db : Database) (merchant : Option Seconds)
    (found : Option LoadedPayment) : Database :=
  db.write (unitOfWork c.payment c.events merchant found)

theorem commit_merchants {id : String} (other : merchant = none → id ≠ c.payment.merchantId) :
    (c.commit db merchant found).merchants id = db.merchants id := by
  cases merchant with
  | none => exact Function.update_of_ne (other rfl) _ _
  | some createdAt => rfl

theorem commit_payments {id : Uuid} (other : id ≠ c.payment.id) :
    (c.commit db merchant found).payments id = db.payments id := by
  cases found with
  | none => exact Function.update_of_ne other _ _
  | some found => exact Function.update_of_ne other _ _

theorem commit_keys {key : RecordKey} (other : key ≠ c.payment.key) :
    (c.commit db merchant found).keys key = db.keys key := by
  cases found with
  | none => exact Function.update_of_ne other _ _
  | some found => rfl

theorem commit_refunds {row : Refund} :
    row ∈ (c.commit db merchant found).refunds ↔ row ∈ db.refunds ∨ row ∈ c.payment.refunds ∧
      row.id ∉ ((found.map LoadedPayment.refunds).getD []).map Refund.id := by
  simp [SaveCall.commit, Database.write, unitOfWork, newRefunds]

theorem commit_attempts {row : PaymentAttemptRow} :
    row ∈ (c.commit db merchant found).attempts ↔ row ∈ db.attempts ∨
      row ∈ newAttempts c.payment ((found.map LoadedPayment.attempts).getD []) :=
  List.mem_append

theorem commit_outbox {event : EventEnvelope} :
    event ∈ (c.commit db merchant found).outbox ↔ event ∈ db.outbox ∨ event ∈ c.events := by
  simp [SaveCall.commit, Database.write, unitOfWork]

theorem commit_beside (apart : ∀ key ∈ d.keys, key ∉ c.keys) :
    Beside d db (c.commit db merchant found) := by
  have id_ne : d.payment.id ≠ c.payment.id := by
    intro same
    exact apart (.payment d.payment.id) (by simp [SaveCall.keys]) (by simp [SaveCall.keys, same])
  have key_ne : d.payment.key ≠ c.payment.key := by
    intro same
    exact apart (.idempotency d.payment.key) (by simp [SaveCall.keys])
      (by simp [SaveCall.keys, same])
  constructor
  · exact commit_payments id_ne
  · exact commit_keys key_ne
  · intro key mem stored
    cases key with
    | merchant id => simp [SaveCall.keys] at mem
    | payment id =>
      obtain rfl : id = d.payment.id := by simpa [SaveCall.keys] using mem
      rwa [Has, commit_payments id_ne] at stored
    | idempotency key =>
      obtain rfl : key = d.payment.key := by simpa [SaveCall.keys] using mem
      rwa [Has, commit_keys key_ne] at stored
    | refund id =>
      obtain ⟨row, hrow, rfl⟩ := List.mem_map.mp stored
      obtain before | ⟨own, -⟩ := commit_refunds.mp hrow
      · exact List.mem_map_of_mem before
      · exact absurd (refund_mem_keys own) (apart _ mem)
    | event id =>
      obtain ⟨event, hevent, rfl⟩ := List.mem_map.mp stored
      obtain before | own := commit_outbox.mp hevent
      · exact List.mem_map_of_mem before
      · exact absurd (event_mem_keys own) (apart _ mem)
  · intro item mem row stored same
    obtain before | ⟨own, -⟩ := commit_refunds.mp stored
    · exact before
    · exact absurd (same ▸ refund_mem_keys own) (apart _ (refund_mem_keys mem))
  · intro id stored
    obtain ⟨row, hrow, rfl⟩ := List.mem_map.mp stored
    exact List.mem_map_of_mem (commit_refunds.mpr (.inl hrow))
  · exact fun row mem => commit_attempts.mpr (.inl mem)
  · exact fun event mem => commit_outbox.mpr (.inl mem)

/-- The commit of a save stores its payment. -/
theorem commit_stored (row : ∀ row, found.map LoadedPayment.row = some row →
      db.payments c.payment.id = some row)
    (attempts : ∀ row ∈ (found.map LoadedPayment.attempts).getD [],
      row ∈ db.attempts ∧ row.paymentId = c.payment.id)
    (refunds : ∀ item ∈ c.payment.refunds,
      item.id ∈ ((found.map LoadedPayment.refunds).getD []).map Refund.id →
      Has db (.refund item.id)) : Stored (c.commit db merchant found) c where
  payment := by
    cases found with
    | none => exact ⟨newRow c.payment, Function.update_self .., rfl, rfl, rfl, rfl, rfl⟩
    | some found =>
      have same := row found.row rfl
      refine ⟨(Assignments.ofPayment found.row c.payment).apply found.row, ?_, ?_⟩
      · have updated : (c.commit db merchant (some found)).payments c.payment.id =
            (db.payments c.payment.id).map (Assignments.ofPayment found.row c.payment).apply :=
          Function.update_self ..
        rw [updated, same]
        rfl
      · exact ⟨Assignments.changed_getD _ _, Assignments.changed_getD _ _,
          Assignments.changed_getD _ _, Assignments.changed_getD _ _, Assignments.changed_getD _ _⟩
  attempts := by
    intro item mem
    by_cases marked : (item.provider, item.attemptNumber, item.createdAt) ∈
        ((found.map LoadedPayment.attempts).getD []).map
          fun row => (row.provider, row.attemptNumber, row.createdAt)
    · obtain ⟨row, old, same⟩ := List.mem_map.mp marked
      obtain ⟨stored, own⟩ := attempts row old
      simp only [Prod.mk.injEq] at same
      exact ⟨row, commit_attempts.mpr (.inl stored), own, same⟩
    · have new : newAttempt c.payment.id item ∈
          newAttempts c.payment ((found.map LoadedPayment.attempts).getD []) :=
        List.mem_map_of_mem (List.mem_filter.mpr ⟨mem, decide_eq_true marked⟩)
      exact ⟨_, commit_attempts.mpr (.inr new), rfl, rfl, rfl, rfl⟩
  refunds := by
    intro item mem
    by_cases old : item.id ∈ ((found.map LoadedPayment.refunds).getD []).map Refund.id
    · obtain ⟨row, hrow, same⟩ := List.mem_map.mp (refunds item mem old)
      exact List.mem_map.mpr ⟨row, commit_refunds.mpr (.inl hrow), same⟩
    · exact List.mem_map_of_mem (commit_refunds.mpr (.inr ⟨mem, old⟩))
  events := fun event mem => commit_outbox.mpr (.inr mem)

end Commit

section Steps

variable {calls : Tid → SaveCall} {w w' : Sessions} {t u : Tid} {c : SaveCall} {g : Stage}
  {key : Key}

/-- A save that another one commits beside. -/
theorem Fine.beside (h : Fine w t c g) (beside : Beside c w.database w'.database)
    (missed : g.Missed → (t, c.payment.merchantId) ∈ w'.missed ∧
      w'.database.merchants c.payment.merchantId = none ∧
      ∀ u ≠ t, (u, c.payment.merchantId) ∉ w'.missed) : Fine w' t c g where
  missed := missed
  storable := fun going => (h.storable going).beside beside
  row := by
    rw [beside.payment]
    exact h.row
  attempts := by
    intro row mem
    obtain ⟨stored, own⟩ := h.attempts row mem
    exact ⟨beside.attempts stored, own⟩
  writing := by
    intro merchant found done rest at_
    obtain ⟨keys, absent, refunds⟩ := h.writing merchant found done rest at_
    refine ⟨keys, beside.payment ▸ absent, fun item mem => ?_⟩
    rw [← refunds item mem]
    exact ⟨beside.has _ (refund_mem_keys mem), beside.kept _⟩
  stored := fun at_ => (h.stored at_).beside beside
  unfailed := h.unfailed

theorem beside_refl (db : Database) : Beside c db db :=
  ⟨rfl, rfl, fun _ _ h => h, fun _ _ _ h _ => h, fun _ h => h, fun _ h => h, fun _ h => h⟩

theorem Fine.same (h : Fine w t c g) (database : w'.database = w.database)
    (missed : g.Missed → (t, c.payment.merchantId) ∈ w'.missed ∧
      ∀ u ≠ t, (u, c.payment.merchantId) ∉ w'.missed) : Fine w' t c g := by
  apply h.beside (database ▸ beside_refl _)
  intro at_
  rw [database]
  exact ⟨(missed at_).1, (h.missed at_).2.1, (missed at_).2⟩

theorem merchant_not_mem_keys {id : String} : .merchant id ∉ c.keys := by
  simp [SaveCall.keys]

theorem done_mem_keys (fine : Fine w t c g) (h : key ∈ g.done) : key ∈ c.keys := by
  cases g with
  | writing merchant found done rest =>
    obtain ⟨keys, -, -⟩ := fine.writing merchant found done rest rfl
    apply (writes_sublist c found).subset
    rw [← keys]
    exact List.mem_append_left _ h
  | _ => cases h

theorem pending_cases {running : Option Tid} {st : Statuses} (inv : Inv calls w running st)
    (h : (u, key) ∈ w.pending) :
    key = .merchant (calls u).payment.merchantId ∧ (u, (calls u).payment.merchantId) ∈ w.missed ∨
      key ∈ (calls u).keys := by
  obtain ⟨x, status, ⟨missed, rfl⟩ | done⟩ := inv.pending h
  · exact .inl ⟨rfl, ((inv.fine status).2.missed (.inr missed)).1⟩
  · exact .inr (done_mem_keys (inv.fine status).2 done)

/-- Nobody else holds the key that a save inserts. -/
theorem insert_ok {running : Option Tid} {st : Statuses}
    (apart : ∀ t u, t ≠ u → ∀ key ∈ (calls t).keys, key ∉ (calls u).keys)
    (inv : Inv calls w running st) (free : ¬Has w.database key) (own : (t, key) ∉ w.pending)
    (mine : key = .merchant (calls t).payment.merchantId ∧
      (∀ u ≠ t, (u, (calls t).payment.merchantId) ∉ w.missed) ∨ key ∈ (calls t).keys) :
    w.insert t key = .reply (.ok ()) { w with pending := (t, key) :: w.pending } := by
  unfold Sessions.insert
  rw [if_neg (by simp [free, own]), if_neg]
  intro others
  obtain ⟨⟨u, k⟩, mem, rfl⟩ := List.mem_map.mp others
  have ne : u ≠ t := by
    rintro rfl
    exact own mem
  obtain ⟨theirs, missed⟩ | theirs := pending_cases inv mem
  · obtain ⟨same, alone⟩ | mine := mine
    · have merchants := Key.merchant.inj (theirs.symm.trans same)
      exact alone u ne (merchants ▸ missed)
    · exact merchant_not_mem_keys (theirs ▸ mine)
  · obtain ⟨same, -⟩ | mine := mine
    · have merchant : k = .merchant (calls t).payment.merchantId := same
      exact merchant_not_mem_keys (merchant ▸ theirs)
    · exact apart t u ne.symm _ mine theirs

/-- A step of one save, seen from the others. -/
theorem inv_put {running v : Option Tid} {st : Statuses} (inv : Inv calls w running st)
    (ht : st t = some ⟨c, g, false⟩) {g' : Stage} (b : Bool)
    (pending : ∀ u key, (u, key) ∈ w'.pending →
      u ≠ t ∧ (u, key) ∈ w.pending ∨ u = t ∧ g'.Holds (calls t) key)
    (others : ∀ u ≠ t, ∀ x, Fine w u (calls u) x → Fine w' u (calls u) x)
    (waiting : ∀ u ≠ t, Storable w.database (calls u) → Storable w'.database (calls u))
    (mine : Fine w' t (calls t) g') :
    Inv calls w' v (Function.update st t (some ⟨c, g', b⟩)) where
  pending := by
    intro u key mem
    obtain ⟨ne, before⟩ | ⟨rfl, holds⟩ := pending u key mem
    · obtain ⟨x, status, holds⟩ := inv.pending before
      exact ⟨x, by rwa [Function.update_of_ne ne], holds⟩
    · exact ⟨_, Function.update_self .., holds⟩
  fine := by
    intro u x hx
    obtain ⟨rfl, rfl⟩ | ⟨ne, hx⟩ := update_cases hx
    · exact ⟨(inv.fine ht).1, mine⟩
    · exact ⟨(inv.fine hx).1, others u ne _ (inv.fine hx).2⟩
  waiting := by
    intro u hu
    by_cases same : u = t
    · subst same
      rw [Function.update_self] at hu
      cases hu
    · rw [Function.update_of_ne same] at hu
      exact waiting u same (inv.waiting hu)

theorem inv_read {running v : Option Tid} {st : Statuses} (inv : Inv calls w running st)
    (ht : st t = some ⟨c, g, false⟩) {g' : Stage} (b : Bool)
    (holds : ∀ key, g.Holds (calls t) key → g'.Holds (calls t) key)
    (mine : Fine w t (calls t) g') :
    Inv calls w v (Function.update st t (some ⟨c, g', b⟩)) := by
  apply inv_put inv ht b _ (fun _ _ _ h => h) (fun _ _ h => h) mine
  intro u key mem
  by_cases same : u = t
  · subst same
    obtain ⟨x, status, held⟩ := inv.pending mem
    obtain rfl := Option.some.inj (ht.symm.trans status)
    exact .inr ⟨rfl, holds key held⟩
  · exact .inl ⟨same, mem⟩

/-- An insertion that is pending. -/
theorem inv_insert {running v : Option Tid} {st : Statuses} (inv : Inv calls w running st)
    (ht : st t = some ⟨c, g, false⟩) {g' : Stage} (b : Bool)
    (holds : ∀ key', g.Holds (calls t) key' ∨ key' = key → g'.Holds (calls t) key')
    (mine : Fine w t (calls t) g') :
    Inv calls { w with pending := (t, key) :: w.pending } v
      (Function.update st t (some ⟨c, g', b⟩)) := by
  have same (u : Tid) (x : Stage) (h : Fine w u (calls u) x) :
      Fine { w with pending := (t, key) :: w.pending } u (calls u) x :=
    h.same rfl fun at_ => ⟨(h.missed at_).1, (h.missed at_).2.2⟩
  apply inv_put inv ht b _ (fun u _ x h => same u x h) (fun _ _ h => h) (same t g' mine)
  intro u k mem
  obtain new | old := List.mem_cons.mp mem
  · cases new
    exact .inr ⟨rfl, holds key (.inr rfl)⟩
  · by_cases hu : u = t
    · subst hu
      obtain ⟨x, status, held⟩ := inv.pending old
      obtain rfl := Option.some.inj (ht.symm.trans status)
      exact .inr ⟨rfl, holds k (.inl held)⟩
    · exact .inl ⟨hu, old⟩

/-- A save that has missed its merchant. -/
theorem inv_missed {running v : Option Tid} {st : Statuses} (inv : Inv calls w running st)
    (ht : st t = some ⟨c, .start, false⟩) (b : Bool)
    (absent : w.database.merchants (calls t).payment.merchantId = none)
    (alone : (calls t).payment.merchantId ∉ w.missed.map Prod.snd) :
    Inv calls { w with missed := (t, (calls t).payment.merchantId) :: w.missed } v
      (Function.update st t (some ⟨c, .missing, b⟩)) := by
  have nobody (u : Tid) : (u, (calls t).payment.merchantId) ∉ w.missed :=
    fun mem => alone (List.mem_map_of_mem mem)
  have fine := (inv.fine ht).2
  apply inv_put inv ht b
  · intro u key mem
    by_cases hu : u = t
    · subst hu
      obtain ⟨x, status, ⟨missed, -⟩ | done⟩ := inv.pending mem
      · obtain rfl := Option.some.inj (ht.symm.trans status)
        cases missed
      · obtain rfl := Option.some.inj (ht.symm.trans status)
        cases done
    · exact .inl ⟨hu, mem⟩
  · intro u hu x h
    refine Fine.same h ?_ fun at_ => ?_
    · rfl
    obtain ⟨mem, -, others⟩ := h.missed at_
    refine ⟨List.mem_cons_of_mem _ mem, fun v hv new => ?_⟩
    obtain same | old := List.mem_cons.mp new
    · exact nobody u ((Prod.mk.inj same).2 ▸ mem)
    · exact others v hv old
  · exact fun _ _ h => h
  · refine fine_early trivial (fun _ => ?_) (fine.storable ⟨nofun, nofun⟩)
    refine ⟨List.mem_cons_self .., absent, fun u hu new => ?_⟩
    obtain same | old := List.mem_cons.mp new
    · exact hu (Prod.mk.inj same).1
    · exact nobody u old

/-- The commit of a save. -/
theorem inv_commit {running v : Option Tid} {st : Statuses}
    (apart : ∀ t u, t ≠ u → ∀ key ∈ (calls t).keys, key ∉ (calls u).keys)
    (inv : Inv calls w running st) {merchant : Option Seconds} {found : Option LoadedPayment}
    {done : List Key} (ht : st t = some ⟨c, .writing merchant found done [], false⟩) (b : Bool) :
    Inv calls (w.close t ((calls t).commit w.database merchant found)) v
      (Function.update st t (some ⟨c, .stored, b⟩)) := by
  have fine := (inv.fine ht).2
  have beside (u : Tid) (hu : u ≠ t) :
      Beside (calls u) w.database ((calls t).commit w.database merchant found) :=
    commit_beside (apart u t hu)
  apply inv_put inv ht b
  · intro u key mem
    obtain ⟨mem, ne⟩ := List.mem_filter.mp mem
    exact .inl ⟨by simpa using ne, mem⟩
  · intro u hu x h
    apply h.beside (beside u hu)
    intro at_
    obtain ⟨mem, absent, others⟩ := h.missed at_
    refine ⟨List.mem_filter.mpr ⟨mem, by simpa using hu⟩, ?_, fun v hv new =>
      others v hv (List.mem_of_mem_filter new)⟩
    refine (commit_merchants ?_).trans absent
    rintro rfl same
    exact others t hu.symm (same ▸ (fine.missed (.inr rfl)).1)
  · exact fun u hu h => h.beside (beside u hu)
  · constructor
    · rintro (missed | missed) <;> cases missed
    · exact fun going => absurd rfl going.1
    · exact fun _ h => by cases h
    · exact fun _ h => by cases h
    · exact fun _ _ _ _ h => by cases h
    · intro _
      obtain ⟨-, -, refunds⟩ := fine.writing merchant found done [] rfl
      exact commit_stored fine.row fine.attempts fun item mem => (refunds item mem).mpr
    · exact fun h => by cases h

end Steps

section Maintained

variable {calls : Tid → SaveCall} {s : SavesState} {l : SavesLabel} {t : Tid} {w : Sessions}

/-- The transactions are those of the saves. -/
def Made (calls : Tid → SaveCall) : SavesLabel → Prop
  | .call t c => c = calls t
  | _ => True

theorem execute_reply {e : SqlEffect} {r : e.Reply}
    (h : Delivered sessions s l t (.execute e) (.reply r w)) :
    (∃ i, l = .resume t i) ∧ r = s.world.database.answer e ∧ w = s.world.execute t e := by
  obtain ⟨i, -, -, ha⟩ | ⟨i, hl, -, ha⟩ := h.answer
  · cases i <;> cases ha
  · cases i <;> cases ha
    exact ⟨⟨_, hl⟩, rfl, rfl⟩

theorem insert_reply {key : Key} {r : Except Exn Unit}
    (h : Delivered sessions s l t (.insert key) (.reply r w)) :
    s.world.insert t key = .reply r w := by
  obtain ⟨i, -, -, ha⟩ | ⟨i, -, -, ha⟩ := h.answer
  · cases i <;> cases ha
  · cases i with
    | go => exact ha.symm
    | _ => cases ha

theorem wait_same {e : SessionEffect} (h : Delivered sessions s l t e (.wait w)) :
    w = s.world := by
  obtain ⟨i, -, -, ha⟩ | ⟨i, -, -, ha⟩ := h.answer
  · cases i <;> cases ha
    rfl
  · cases e with
    | execute e => cases i <;> cases ha
    | insert key =>
      cases i with
      | go =>
        simp only [sessions, resume, Sessions.insert] at ha
        split at ha
        · cases ha
        · split at ha <;> cases ha
      | _ => cases ha

theorem lookingFor_of_at {id : String} (h : s.At t (.execute (.selectMerchant id))) :
    lookingFor s t = some id := by
  obtain ⟨T, task, head⟩ := h
  simp only [lookingFor, task, head, Option.bind_some]

variable {c : SaveCall} {g : Stage} {running v : Option Tid} {st : Statuses}

/-- The save reads the row of its payment. -/
theorem inv_select (inv : Inv calls w running st) {merchant : Option Seconds}
    (ht : st t = some ⟨calls t, .seeking merchant, false⟩) (b : Bool) :
    Inv calls w v (Function.update st t (some ⟨calls t, next (calls t) (.seeking merchant)
      (.execute (.selectPayment (calls t).payment.id))
      (w.database.payments (calls t).payment.id), b⟩)) := by
  have fine := (inv.fine ht).2
  have storable := fine.storable ⟨nofun, nofun⟩
  cases found : w.database.payments (calls t).payment.id with
  | none =>
    apply inv_read inv ht b
    · rintro key (holds | done)
      · exact .inl holds
      · cases done
    · constructor
      · exact fun at_ => fine.missed (at_.imp (fun at_ => nomatch at_) id)
      · exact fun _ => storable
      · exact fun _ h => by cases h
      · exact fun _ h => by cases h
      · intro merchant' found' done rest at_
        cases at_
        refine ⟨rfl, fun _ => found, fun item mem => ?_⟩
        exact iff_of_false ((storable.unused found).2 item mem) (by simp)
      · exact fun h => by cases h
      · exact fun h => by cases h
  | some row =>
    apply inv_read inv ht b
    · rintro key (holds | done)
      · exact .inl holds
      · cases done
    · constructor
      · exact fun at_ => fine.missed (at_.imp (fun at_ => nomatch at_) id)
      · exact fun _ => storable
      · intro row' same
        obtain rfl := Option.some.inj same
        exact found
      · exact fun _ h => by cases h
      · exact fun _ _ _ _ h => by cases h
      · exact fun h => by cases h
      · exact fun h => by cases h

/-- The save reads the refunds of its payment. -/
theorem inv_join (inv : Inv calls w running st) {merchant : Option Seconds} {row : PaymentRow}
    {attempts : List PaymentAttemptRow}
    (ht : st t = some ⟨calls t, .joined merchant row attempts, false⟩) (b : Bool) :
    Inv calls w v (Function.update st t (some ⟨calls t, next (calls t)
      (.joined merchant row attempts) (.execute (.selectRefunds row.id))
      (w.database.refundsOf row.id), b⟩)) := by
  have fine := (inv.fine ht).2
  have storable := fine.storable ⟨nofun, nofun⟩
  have selected := fine.row row rfl
  have identified := storable.identified row selected
  apply inv_read inv ht b
  · rintro key (holds | done)
    · exact .inl holds
    · cases done
  · constructor
    · exact fun at_ => fine.missed (at_.imp (fun at_ => nomatch at_) id)
    · exact fun _ => storable
    · intro row' same
      obtain rfl := Option.some.inj same
      exact selected
    · exact fine.attempts
    · intro merchant' found' done rest at_
      cases at_
      refine ⟨rfl, nofun, fun item mem => ?_⟩
      constructor
      · intro stored
        obtain ⟨old, hold, same⟩ := List.mem_map.mp stored
        have own := storable.own item mem old hold same
        rw [← identified] at own
        exact List.mem_map.mpr ⟨old, List.mem_filter.mpr ⟨hold, by simpa using own⟩, same⟩
      · intro read
        obtain ⟨old, hold, same⟩ := List.mem_map.mp read
        exact List.mem_map.mpr ⟨old, List.mem_of_mem_filter hold, same⟩
    · exact fun h => by cases h
    · exact fun h => by cases h

/-- The save inserts the next of its rows. -/
theorem inv_write (nodup : (calls t).keys.Nodup)
    (apart : ∀ t u, t ≠ u → ∀ key ∈ (calls t).keys, key ∉ (calls u).keys)
    (inv : Inv calls w running st) {merchant : Option Seconds} {found : Option LoadedPayment}
    {done rest : List Key} {key : Key}
    (ht : st t = some ⟨calls t, .writing merchant found done (key :: rest), false⟩) :
    w.insert t key = .reply (.ok ()) { w with pending := (t, key) :: w.pending } ∧
      ∀ v b, Inv calls { w with pending := (t, key) :: w.pending } v
        (Function.update st t (some ⟨calls t, .writing merchant found (done ++ [key]) rest, b⟩)) := by
  have fine := (inv.fine ht).2
  obtain ⟨keys, absent, refunds⟩ := fine.writing merchant found done (key :: rest) rfl
  have mem : key ∈ (calls t).writes found := by
    rw [← keys]
    simp
  have mine : key ∈ (calls t).keys := (writes_sublist _ _).subset mem
  have new : key ∉ done := by
    have distinct := (writes_sublist (calls t) found).nodup nodup
    rw [← keys] at distinct
    intro old
    exact (List.nodup_append.mp distinct).2.2 key old key (List.mem_cons_self ..) rfl
  have own : (t, key) ∉ w.pending := by
    intro pending
    obtain ⟨x, status, held⟩ := inv.pending pending
    obtain rfl := Option.some.inj (ht.symm.trans status)
    obtain ⟨-, rfl⟩ | old := held
    · exact merchant_not_mem_keys mine
    · exact new old
  have free := writes_free (fine.storable ⟨nofun, nofun⟩) absent
    (fun item mem => (refunds item mem).mp) mem
  refine ⟨insert_ok apart inv free own (.inr mine), fun v b => ?_⟩
  apply inv_insert inv ht b
  · rintro key' ((holds | old) | rfl)
    · exact .inl holds
    · exact .inr (List.mem_append_left _ old)
    · exact .inr (List.mem_append_right _ (List.mem_singleton_self _))
  · constructor
    · exact fun at_ => fine.missed (at_.imp (fun at_ => nomatch at_) id)
    · exact fun _ => fine.storable ⟨nofun, nofun⟩
    · exact fine.row
    · exact fine.attempts
    · intro merchant' found' done' rest' at_
      cases at_
      exact ⟨by rw [List.append_assoc]; exact keys, absent, refunds⟩
    · exact fun h => by cases h
    · exact fun h => by cases h

/-- The save inserts the merchant that it has missed. -/
theorem inv_merchant
    (apart : ∀ t u, t ≠ u → ∀ key ∈ (calls t).keys, key ∉ (calls u).keys)
    (inv : Inv calls w running st) (ht : st t = some ⟨calls t, .missing, false⟩) :
    w.insert t (.merchant (calls t).payment.merchantId) = .reply (.ok ())
        { w with pending := (t, .merchant (calls t).payment.merchantId) :: w.pending } ∧
      ∀ v b, Inv calls
        { w with pending := (t, .merchant (calls t).payment.merchantId) :: w.pending } v
        (Function.update st t (some ⟨calls t, .seeking none, b⟩)) := by
  have fine := (inv.fine ht).2
  obtain ⟨mem, absent, alone⟩ := fine.missed (.inl rfl)
  have own : (t, .merchant (calls t).payment.merchantId) ∉ w.pending := by
    intro pending
    obtain ⟨x, status, held⟩ := inv.pending pending
    obtain rfl := Option.some.inj (ht.symm.trans status)
    obtain ⟨missed, -⟩ | done := held
    · cases missed
    · cases done
  refine ⟨insert_ok apart inv (not_not.mpr absent) own (.inl ⟨rfl, alone⟩), fun v b => ?_⟩
  apply inv_insert inv ht b
  · rintro key' ((⟨missed, -⟩ | done) | rfl)
    · cases missed
    · cases done
    · exact .inl ⟨rfl, rfl⟩
  · exact fine_early trivial (fun _ => ⟨mem, absent, alone⟩) (fine.storable ⟨nofun, nofun⟩)

/-- The statement of a save at a stage. -/
theorem ok_cases {e : SessionEffect} (h : ok c g e) :
    g = .start ∧ e = .execute (.selectMerchant c.payment.merchantId) ∨
    g = .missing ∧ e = .insert (.merchant c.payment.merchantId) ∨
    (∃ merchant, g = .seeking merchant ∧ e = .execute (.selectPayment c.payment.id)) ∨
    (∃ merchant row, g = .selected merchant row ∧ e = .execute (.selectAttempts row.id)) ∨
    (∃ merchant row attempts, g = .joined merchant row attempts ∧
      e = .execute (.selectRefunds row.id)) ∨
    (∃ merchant found done key rest, g = .writing merchant found done (key :: rest) ∧
      e = .insert key) ∨
    ∃ merchant found done, g = .writing merchant found done [] ∧
      e = .execute (.commit (unitOfWork c.payment c.events merchant found)) := by
  unfold ok at h
  split at h
  · subst h
    exact .inl ⟨rfl, rfl⟩
  · subst h
    exact .inr (.inl ⟨rfl, rfl⟩)
  · subst h
    exact .inr (.inr (.inl ⟨_, rfl, rfl⟩))
  · subst h
    exact .inr (.inr (.inr (.inl ⟨_, _, rfl, rfl⟩)))
  · subst h
    exact .inr (.inr (.inr (.inr (.inl ⟨_, _, _, rfl, rfl⟩))))
  · subst h
    exact .inr (.inr (.inr (.inr (.inr (.inl ⟨_, _, _, _, _, rfl, rfl⟩)))))
  · subst h
    exact .inr (.inr (.inr (.inr (.inr (.inr ⟨_, _, _, rfl, rfl⟩)))))
  · exact h.elim

theorem inv_reply (distinct : ∀ t, (calls t).keys.Nodup)
    (apart : ∀ t u, t ≠ u → ∀ key ∈ (calls t).keys, key ∉ (calls u).keys)
    (inv : Inv calls s.world running st) (meets : Apart s l)
    (ht : st t = some ⟨c, g, false⟩) {e : SessionEffect} (hok : ok c g e) {r : e.Reply}
    (h : Delivered sessions s l t e (.reply r w)) (v : Option Tid) (b : Bool) :
    Inv calls w v (Function.update st t (some ⟨c, next c g e r, b⟩)) := by
  obtain rfl : c = calls t := (inv.fine ht).1
  obtain ⟨rfl, rfl⟩ | ⟨rfl, rfl⟩ | ⟨merchant, rfl, rfl⟩ | ⟨merchant, row, rfl, rfl⟩ |
    ⟨merchant, row, attempts, rfl, rfl⟩ | ⟨merchant, found, done, key, rest, rfl, rfl⟩ |
    ⟨merchant, found, done, rfl, rfl⟩ := ok_cases hok
  · obtain ⟨⟨i, rfl⟩, rfl, rfl⟩ := execute_reply h
    cases merchant : s.world.database.merchants (calls t).payment.merchantId with
    | none =>
      simp only [Sessions.execute, Database.answer, merchant, if_true, next]
      exact inv_missed inv ht b merchant
        (meets _ (lookingFor_of_at h.reached) merchant)
    | some createdAt =>
      simp only [Sessions.execute, Database.answer, merchant, reduceCtorEq, if_false, next]
      apply inv_read inv ht b
      · rintro key (⟨missed, -⟩ | done)
        · cases missed
        · cases done
      · refine fine_early trivial ?_ ((inv.fine ht).2.storable ⟨nofun, nofun⟩)
        rintro (at_ | at_) <;> cases at_
  · obtain ⟨inserted, kept⟩ := inv_merchant apart inv ht
    obtain ⟨rfl, rfl⟩ := Answer.reply.inj ((insert_reply h).symm.trans inserted)
    exact kept v b
  · obtain ⟨-, rfl, rfl⟩ := execute_reply h
    exact inv_select inv ht b
  · obtain ⟨-, rfl, rfl⟩ := execute_reply h
    apply inv_read inv ht b
    · rintro key (holds | done)
      · exact .inl holds
      · cases done
    · have fine := (inv.fine ht).2
      constructor
      · exact fun at_ => fine.missed (at_.imp (fun at_ => nomatch at_) id)
      · exact fun _ => fine.storable ⟨nofun, nofun⟩
      · exact fine.row
      · intro item mem
        obtain ⟨stored, own⟩ := List.mem_filter.mp mem
        have identified := (fine.storable ⟨nofun, nofun⟩).identified row (fine.row row rfl)
        exact ⟨stored, (of_decide_eq_true own).trans identified⟩
      · exact fun _ _ _ _ h => by cases h
      · exact fun h => by cases h
      · exact fun h => by cases h
  · obtain ⟨-, rfl, rfl⟩ := execute_reply h
    exact inv_join inv ht b
  · obtain ⟨inserted, kept⟩ := inv_write (distinct t) apart inv ht
    obtain ⟨rfl, rfl⟩ := Answer.reply.inj ((insert_reply h).symm.trans inserted)
    exact kept v b
  · obtain ⟨-, rfl, rfl⟩ := execute_reply h
    exact inv_commit apart inv ht b

theorem saves_maintained {db : Database} (distinct : Distinct db calls) :
    Maintains sessions (fun s l => Made calls l ∧ Apart s l) discipline (Inv calls) where
  follows := save_follows
  call := by
    intro s t c b v meets inv new _
    obtain rfl : c = calls t := meets.1
    refine ⟨?_, ?_, ?_⟩
    · intro u key mem
      obtain ⟨x, status, holds⟩ := inv.pending mem
      have ne : u ≠ t := by
        rintro rfl
        cases new.symm.trans status
      exact ⟨x, by rwa [Function.update_of_ne ne], holds⟩
    · intro u x hx
      obtain ⟨rfl, rfl⟩ | ⟨ne, hx⟩ := update_cases hx
      · refine ⟨rfl, fine_early trivial ?_ (inv.waiting new)⟩
        rintro (at_ | at_) <;> cases at_
      · exact inv.fine hx
    · intro u hu
      by_cases same : u = t
      · subst same
        exact inv.waiting new
      · exact inv.waiting (by rwa [Function.update_of_ne same] at hu)
  reply := by
    intro s l t c g e r w meets inv ht hok h
    exact ⟨trivial, fun b v _ =>
      inv_reply distinct.nodup distinct.apart inv meets.2 ht hok h v b⟩
  wait := by
    intro s l t c g e w _ inv _ _ h
    obtain rfl := wait_same h
    exact ⟨inv.pending, inv.fine, inv.waiting⟩
  outside := by
    intro s a
    exact a.elim

end Maintained

section Smooth

variable {calls : Tid → SaveCall} {db : Database} {s : SavesState} {t : Tid}

theorem inv_initial (distinct : Distinct db calls) :
    Inv calls ⟨db, [], []⟩ none fun _ => none :=
  ⟨fun mem => absurd mem List.not_mem_nil, nofun, fun _ => distinct.storable _⟩

/-- The statement a suspended save is at can be carried out. -/
theorem free_step (distinct : Distinct db calls) (kept : discipline.Kept s)
    (inv : Inv calls s.world s.running (discipline.statuses s)) (idle : s.running = none)
    {T : Task SaveCall SessionEffect SessionEffect.Reply (Except Exn Unit)}
    (task : s.tasks t = some T) (going : T.code.isDone = false) :
    (step sessions (.resume t .go) s).isSome := by
  have follows := kept t T task
  have status := discipline.statuses_of_task task
  cases code : T.code with
  | done a =>
    rw [code] at going
    cases going
  | perform e k =>
    rw [code] at follows
    rw [Maintains.status_perform code] at status
    have same : T.call = calls t := (inv.fine status).1
    have reads {e' : SqlEffect} (he : e = .execute e') :
        (step sessions (.resume t .go) s).isSome := by
      subst he
      rw [step_resume sessions idle task code rfl]
      rfl
    have inserts {key : Key} {w : Sessions} (he : e = .insert key)
        (inserted : s.world.insert t key = .reply (.ok ()) w) :
        (step sessions (.resume t .go) s).isSome := by
      subst he
      have answer : sessions.resume t (.insert key) .go s.world = .reply (.ok ()) w := inserted
      rw [step_resume sessions idle task code answer]
      rfl
    obtain ⟨-, he⟩ | ⟨at_, he⟩ | ⟨merchant, -, he⟩ | ⟨merchant, row, -, he⟩ |
      ⟨merchant, row, attempts, -, he⟩ | ⟨merchant, found, done, key, rest, at_, he⟩ |
      ⟨merchant, found, done, -, he⟩ := ok_cases follows.1
    · exact reads he
    · rw [same, at_] at status
      rw [same] at he
      exact inserts he (inv_merchant distinct.apart inv status).1
    · exact reads he
    · exact reads he
    · exact reads he
    · rw [same, at_] at status
      exact inserts he (inv_write (distinct.nodup t) distinct.apart inv status).1
    · exact reads he

/-- Saves of different payments all go through when those that miss one merchant keep apart. -/
theorem saves_smooth (distinct : Distinct db calls)
    (h : Reaches sessions (fun s l => Made calls l ∧ Apart s l) (.empty ⟨db, [], []⟩) s) :
    Smooth calls s := by
  obtain ⟨kept, inv⟩ := (saves_maintained distinct).reaches_empty (inv_initial distinct) h
  constructor
  · intro t r ended
    obtain ⟨T, task, result⟩ := Option.bind_eq_some_iff.mp ended
    have follows := kept t T task
    have fine := (inv.fine (discipline.statuses_of_task task)).2
    cases code : T.code with
    | perform e k =>
      rw [Task.result, code] at result
      cases result
    | done a =>
      rw [Task.result, code] at result
      obtain rfl := Option.some.inj result
      rw [code] at follows
      obtain ⟨ok, stored⟩ | failed := follows
      · exact ⟨ok, fine.stored stored⟩
      · exact absurd failed fine.unfailed
  · intro t T idle task going
    exact free_step distinct kept inv idle task going

end Smooth

section Instances

/-- No two of these payments have their identifier or their key in common. -/
def paid (t : Tid) : Payment where
  merchantId := "merchant"
  amount := 100
  currency := "EUR"
  paymentMethodType := "card"
  idempotencyKey := String.ofList (List.replicate t 'k')
  id := t
  status := .succeeded
  createdAt := 0
  updatedAt := 0
  attempts := [⟨"mockstripe", 1, .succeeded, 2, 0, none⟩]
  providerReference := some "reference"
  provider := some "mockstripe"

def save (t : Tid) : SaveCall where
  payment := paid t
  events := [{
    eventType := .paymentSucceeded
    merchantId := "merchant"
    aggregateId := some t
    payload := .payment t .succeeded
    provider := some "mockstripe"
    id := t
    occurredAt := 0 }]

def vacant : Database := ⟨fun _ => none, fun _ => none, fun _ => none, [], [], []⟩

theorem save_distinct : Distinct vacant save where
  apart := by
    have keys (t : Tid) : (save t).keys = [.payment t,
        .idempotency ("merchant", String.ofList (List.replicate t 'k')), .event t] := rfl
    have lists {t u : Tid} (same : String.ofList (List.replicate t 'k') =
        String.ofList (List.replicate u 'k')) : t = u := by
      have := congrArg String.length same
      simpa using this
    intro t u ne key mem
    rw [keys] at mem ⊢
    simp only [List.mem_cons, List.not_mem_nil, or_false] at mem ⊢
    rintro (rfl | rfl | rfl)
    · simp_all
    · simp only [reduceCtorEq, Key.idempotency.injEq, Prod.mk.injEq, true_and, false_or,
        or_false] at mem
      exact ne (lists mem).symm
    · simp_all
  nodup := by
    intro t
    simp [SaveCall.keys, save, paid]
  storable := by
    intro t
    constructor <;> simp [save, paid, vacant, Has]

def statement (t : Tid) : List SavesLabel := [.resume t .go, .enter t .suspend]

def begin (t : Tid) : List SavesLabel := [.call t (save t), .enter t .suspend]

/-- Both payments are the first of their merchant. -/
def overlapping : List SavesLabel :=
  begin 0 ++ begin 1 ++ statement 0 ++ statement 1 ++
  (List.replicate 5 (statement 0)).flatten ++ [.resume 0 .go, .resume 1 .go]

theorem overlapping_fails :
    Distinct vacant save ∧
    ∃ s ∈ run sessions overlapping (.empty ⟨vacant, [], []⟩),
      s.result 0 = some (.ok ()) ∧ s.result 1 = some (.error integrityError) ∧
      s.world.database.payments 1 = none := by
  refine ⟨save_distinct, ?_⟩
  decide +kernel

/-- The second and the third payment find their merchant. -/
def successive : List SavesLabel :=
  begin 0 ++ (List.replicate 6 (statement 0)).flatten ++ [.resume 0 .go] ++
  begin 1 ++ begin 2 ++ (List.replicate 5 (statement 1 ++ statement 2)).flatten ++
  [.resume 1 .go, .resume 2 .go]

instance (calls : Tid → SaveCall) : DecidablePred (Made calls)
  | .call t c => inferInstanceAs (Decidable (c = calls t))
  | .enter _ _ => .isTrue trivial
  | .resume _ _ => .isTrue trivial
  | .outside a => a.elim

theorem successive_smooth :
    ∃ s ∈ run sessions successive (.empty ⟨vacant, [], []⟩),
      (∀ t < 3, s.result t = some (.ok ())) ∧ Smooth save s := by
  have ends : ∃ s ∈ runWhile sessions (fun s l => Made save l ∧ Apart s l) successive
      (.empty ⟨vacant, [], []⟩), ∀ t < 3, s.result t = some (.ok ()) := by decide +kernel
  obtain ⟨s, hs, results⟩ := ends
  exact ⟨s, runWhile_run sessions hs, results,
    saves_smooth save_distinct (runWhile_reaches sessions hs)⟩

end Instances

end PySwitch.SqlSaves
