import PySwitch.Async.Invariant
import PySwitch.SqlRepository

namespace PySwitch.SqlSaves

open Async Program
open SqlAlchemyPaymentRepository (unitOfWork)

/-- What a primary key or a unique constraint allows once. -/
inductive Key where
  | merchant (id : String)
  | payment (id : Uuid)
  | idempotency (key : RecordKey)
  | refund (id : Uuid)
  | event (id : Uuid)
  deriving DecidableEq, Repr

/-- The statements of a session. An `insert` writes the row that has the key. The attempts have
no part in it, their identifiers are drawn when they are written. -/
inductive SessionEffect where
  | execute (e : SqlEffect)
  | insert (key : Key)

@[reducible] def SessionEffect.Reply : SessionEffect → Type
  | .execute e => e.Reply
  | .insert _ => Except Exn Unit

def integrityError : Exn := .other "duplicate key value violates unique constraint"

abbrev Session (α : Type) : Type := Program SessionEffect SessionEffect.Reply Unit Exn α

/-- The keys of the rows that a transaction inserts when it commits. A merchant is inserted
before. -/
def insertions (work : UnitOfWork) : List Key :=
  (match work.payment with
    | some (.insert row) => [.payment row.id, .idempotency (row.merchantId, row.idempotencyKey)]
    | _ => []) ++
  work.refunds.map (fun item => .refund item.id) ++ work.events.map (fun event => .event event.id)

section Session

def execute (e : SqlEffect) : Session e.Reply := effect (SessionEffect.execute e)

def insert (key : Key) : Session Unit := await (effect (SessionEffect.insert key))

def flush : List Key → Session Unit
  | [] => pure ()
  | key :: rest => do
    insert key
    flush rest

def load : Option PaymentRow → Session (Option LoadedPayment)
  | none => return none
  | some row => do
    let attempts ← execute (.selectAttempts row.id)
    let refunds ← execute (.selectRefunds row.id)
    return some ⟨row, attempts, refunds⟩

/-- The session inserts a new merchant before its next query, and the other rows when it
commits. -/
def saveWithEvents (payment : Payment) (events : List EventEnvelope) : Session Unit := do
  let merchant ← execute (.selectMerchant payment.merchantId)
  onlyIf (merchant = none) (insert (.merchant payment.merchantId))
  let row ← execute (.selectPayment payment.id)
  let found ← load row
  flush (insertions (unitOfWork payment events merchant found))
  execute (.commit (unitOfWork payment events merchant found))

/-- Where no insertion can fail, only the other statements count. -/
def erase : (e : SessionEffect) → Coroutine WorkerEffect WorkerEffect.Reply e.Reply
  | .execute e => .perform (.sql e) .done
  | .insert _ => .done (.ok ())

end Session

structure SaveCall where
  payment : Payment
  events : List EventEnvelope
  deriving DecidableEq

/-- The committed rows, the keys of those that were inserted and are not committed yet, and the
merchants that transactions which are not over have missed. -/
structure Sessions where
  database : Database
  pending : List (Tid × Key)
  missed : List (Tid × String)

def Has (db : Database) : Key → Prop
  | .merchant id => db.merchants id ≠ none
  | .payment id => db.payments id ≠ none
  | .idempotency key => db.keys key ≠ none
  | .refund id => id ∈ db.refunds.map Refund.id
  | .event id => id ∈ db.outbox.map EventEnvelope.id

instance (db : Database) : DecidablePred (Has db)
  | .merchant _ => inferInstanceAs (Decidable (_ ≠ none))
  | .payment _ => inferInstanceAs (Decidable (_ ≠ none))
  | .idempotency _ => inferInstanceAs (Decidable (_ ≠ none))
  | .refund _ => inferInstanceAs (Decidable (_ ∈ _))
  | .event _ => inferInstanceAs (Decidable (_ ∈ _))

/-- A transaction is over, and the database is what it leaves. -/
def Sessions.close (w : Sessions) (t : Tid) (database : Database) : Sessions where
  database := database
  pending := w.pending.filter fun x => x.1 ≠ t
  missed := w.missed.filter fun x => x.1 ≠ t

/-- A transaction waits for another one that has the key pending, and fails on one that has been
committed. -/
def Sessions.insert (w : Sessions) (t : Tid) (key : Key) : Answer (Except Exn Unit) Sessions :=
  if Has w.database key ∨ (t, key) ∈ w.pending then
    .reply (.error integrityError) (w.close t w.database)
  else if key ∈ w.pending.map Prod.snd then .refuse
  else .reply (.ok ()) { w with pending := (t, key) :: w.pending }

def Sessions.execute (w : Sessions) (t : Tid) : SqlEffect → Sessions
  | .selectMerchant id =>
    if w.database.merchants id = none then { w with missed := (t, id) :: w.missed } else w
  | .commit work => w.close t (w.database.write work)
  | _ => w

def enter (_ : Tid) : (e : SessionEffect) → Input → Sessions → Answer e.Reply Sessions
  | _, .suspend, w => .wait w
  | _, _, _ => .refuse

def resume (t : Tid) : (e : SessionEffect) → Input → Sessions → Answer e.Reply Sessions
  | .execute e, .go, w => .reply (w.database.answer e) (w.execute t e)
  | .insert key, .go, w => w.insert t key
  | _, _, _ => .refuse

/-- Saves in transactions that each see what was committed before every statement. -/
def sessions : System Tid SaveCall SessionEffect SessionEffect.Reply (Except Exn Unit) Input Empty
    Sessions where
  program c := (saveWithEvents c.payment c.events).start ()
  enter := enter
  resume := resume
  outside a _ := a.elim

abbrev SavesState : Type :=
  State Tid SaveCall SessionEffect SessionEffect.Reply (Except Exn Unit) Sessions

abbrev SavesLabel : Type := Label Tid SaveCall Input Empty

/-- The merchant that a task is about to look for. -/
def lookingFor (s : SavesState) (t : Tid) : Option String :=
  match (s.tasks t).bind fun T => T.code.head with
  | some (.execute (.selectMerchant id)) => some id
  | _ => none

/-- No transaction looks for a merchant that is not stored while another one that has missed it
is not over. -/
def Apart (s : SavesState) : SavesLabel → Prop
  | .resume t _ => ∀ id ∈ lookingFor s t, s.world.database.merchants id = none →
    id ∉ s.world.missed.map Prod.snd
  | _ => True

instance (s : SavesState) : DecidablePred (Apart s)
  | .call _ _ => .isTrue trivial
  | .enter _ _ => .isTrue trivial
  | .resume t _ => inferInstanceAs (Decidable (∀ id ∈ lookingFor s t, _ → _ ∉ _))
  | .outside a => a.elim

/-- The keys that a save can take, but for the merchant's. -/
def SaveCall.keys (c : SaveCall) : List Key :=
  .payment c.payment.id :: .idempotency c.payment.key ::
    (c.payment.refunds.map (fun item => .refund item.id) ++
      c.events.map (fun event => .event event.id))

/-- Of the keys of a save only those of an earlier save of the same payment are stored. -/
structure Storable (db : Database) (c : SaveCall) : Prop where
  identified : ∀ row, db.payments c.payment.id = some row → row.id = c.payment.id
  unused : db.payments c.payment.id = none →
    db.keys c.payment.key = none ∧ ∀ item ∈ c.payment.refunds, ¬Has db (.refund item.id)
  own : ∀ item ∈ c.payment.refunds, ∀ row ∈ db.refunds, row.id = item.id →
    row.paymentId = c.payment.id
  events : ∀ event ∈ c.events, ¬Has db (.event event.id)

/-- Saves of different payments. Refunds and events get their identifiers from `uuid4`. -/
structure Distinct (db : Database) (calls : Tid → SaveCall) : Prop where
  apart : ∀ t u, t ≠ u → ∀ key ∈ (calls t).keys, key ∉ (calls u).keys
  nodup : ∀ t, (calls t).keys.Nodup
  storable : ∀ t, Storable db (calls t)

/-- The payment is stored as the save has it. -/
structure Stored (db : Database) (c : SaveCall) : Prop where
  payment : ∃ row, db.payments c.payment.id = some row ∧ row.status = c.payment.status ∧
    row.provider = c.payment.provider ∧ row.providerReference = c.payment.providerReference ∧
    row.refundedAmount = c.payment.refundedAmount ∧ row.updatedAt = c.payment.updatedAt
  attempts : ∀ item ∈ c.payment.attempts, ∃ row ∈ db.attempts, row.paymentId = c.payment.id ∧
    row.provider = item.provider ∧ row.attemptNumber = item.attemptNumber ∧
    row.createdAt = item.createdAt
  refunds : ∀ item ∈ c.payment.refunds, Has db (.refund item.id)
  events : ∀ event ∈ c.events, event ∈ db.outbox

/-- No save has failed or is in the way of another, and those that are over have stored their
payments. -/
structure Smooth (calls : Tid → SaveCall) (s : SavesState) : Prop where
  stored : ∀ {t r}, s.result t = some r → r = .ok () ∧ Stored s.world.database (calls t)
  free : ∀ {t T}, s.running = none → s.tasks t = some T → T.code.isDone = false →
    (step sessions (.resume t .go) s).isSome

section Erase

theorem handle_flush (keys : List Key) (f : Unit → Session Unit) :
    ((flush keys >>= f) ()).handle erase = (f () ()).handle erase := by
  induction keys with
  | nil => rfl
  | cons key rest ih => exact ih

/-- Without its insertions, a save is the one whose rows are all written when it commits. -/
theorem erase_saveWithEvents (payment : Payment) (events : List EventEnvelope) :
    ((saveWithEvents payment events).start ()).handle erase =
      (SqlAlchemyPaymentRepository.saveWithEvents payment events).start () := by
  have ended (merchant : Option Seconds) (found : Option LoadedPayment) :
      ((flush (insertions (unitOfWork payment events merchant found)) >>= fun _ =>
        execute (.commit (unitOfWork payment events merchant found))) ()).handle erase =
      SqlAlchemyPaymentRepository.execute
        (.commit (unitOfWork payment events merchant found)) () :=
    handle_flush _ _
  have saved : (saveWithEvents payment events ()).handle erase =
      SqlAlchemyPaymentRepository.saveWithEvents payment events () := by
    refine congrArg (Coroutine.perform _) (funext fun merchant => ?_)
    cases merchant with
    | none =>
      refine congrArg (Coroutine.perform _) (funext fun row => ?_)
      cases row with
      | none => exact ended none none
      | some row =>
        refine congrArg (Coroutine.perform _) (funext fun attempts => ?_)
        refine congrArg (Coroutine.perform _) (funext fun refunds => ?_)
        exact ended none (some ⟨row, attempts, refunds⟩)
    | some createdAt =>
      refine congrArg (Coroutine.perform _) (funext fun row => ?_)
      cases row with
      | none => exact ended (some createdAt) none
      | some row =>
        refine congrArg (Coroutine.perform _) (funext fun attempts => ?_)
        refine congrArg (Coroutine.perform _) (funext fun refunds => ?_)
        exact ended (some createdAt) (some ⟨row, attempts, refunds⟩)
  exact (Coroutine.handle_bind erase _ _).trans
    (congrArg (fun c => c.bind fun a => .done a.1) saved)

end Erase

end PySwitch.SqlSaves
