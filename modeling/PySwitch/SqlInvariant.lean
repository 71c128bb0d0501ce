import PySwitch.SqlWrites

namespace PySwitch.SqlRefunds

open Async Program Service
open SqlAlchemyPaymentRepository

variable {worker : Tid → ℕ} {id : Uuid}

/-- The lock of a payment on the worker of a task. -/
def SqlWorld.lock (w : SqlWorld) (n : ℕ) (paymentId : Uuid) : Semaphore :=
  (w.cluster.processes n).refundLocks paymentId

def SqlWorld.setLock (w : SqlWorld) (n : ℕ) (paymentId : Uuid) (lock : Semaphore) : SqlWorld :=
  w.setWorld n (Effect.setProcess (w.cluster.world n)
    (RefundLockEffect.put (w.cluster.processes n) paymentId lock))

theorem setLock_lock (w : SqlWorld) (n : ℕ) (paymentId : Uuid) (lock : Semaphore) (m : ℕ)
    (other : Uuid) : (w.setLock n paymentId lock).lock m other =
      if m = n ∧ other = paymentId then lock else w.lock m other := by
  by_cases hm : m = n
  · subst hm
    by_cases ho : other = paymentId <;>
      simp [SqlWorld.setLock, SqlWorld.lock, SqlWorld.setWorld, Effect.setProcess,
        RefundLockEffect.put, ho]
  · simp [SqlWorld.setLock, SqlWorld.lock, SqlWorld.setWorld, Cluster.setWorld_other _ _ hm, hm]

theorem setWorld_lock {w : SqlWorld} {n : ℕ} {v : World}
    (locks : v.process.refundLocks = (w.cluster.processes n).refundLocks) :
    (w.setWorld n v).lock = w.lock := by
  funext m paymentId
  by_cases hm : m = n
  · subst hm
    simp only [SqlWorld.lock, SqlWorld.setWorld, Cluster.setWorld_self, locks]
  · simp only [SqlWorld.lock, SqlWorld.setWorld, Cluster.setWorld_other _ _ hm]

/-- What holds of the stage of a task, of what it has read of one payment in particular. -/
structure Good (worker : Tid → ℕ) (id : Uuid) (w : SqlWorld) (t : Tid) (g : Stage) : Prop where
  lock : ∀ {paymentId}, g.lock = some paymentId → t ∈ (w.lock (worker t) paymentId).holders
  sound : g.Sound w.cluster.shared.nextUuid
  selected : g.reading = some id → .selected t id ∈ w.accesses
  current : g.reading = some id → ¬ Overtaken worker t id w.accesses → g.Current w.database

/-- What holds of the workers and the database. -/
structure Books (id : Uuid) (w : SqlWorld) : Prop where
  locks : ∀ n paymentId, (w.lock n paymentId).limit = 1
  identified : ∀ {paymentId row}, w.database.payments paymentId = some row → row.id = paymentId
  drawn : ∀ r ∈ w.database.refunds, r.id < w.cluster.shared.nextUuid
  balanced : Balanced id w.database

abbrev Statuses : Type := Tid → Option (Status RefundCall Stage)

structure Inv (worker : Tid → ℕ) (id : Uuid) (w : SqlWorld) (_ : Option Tid) (st : Statuses) :
    Prop where
  books : Books id w
  good : ∀ {t u}, st t = some u → Good worker id w t u.phase

theorem committing_of_at {s : WorkersState} {t : Tid} {work : UnitOfWork}
    (h : s.At t (.sql (.commit work))) : committing s t = some work := by
  obtain ⟨T, task, head⟩ := h
  simp only [committing, task, head, Option.bind_some]

section Reads

variable {w : SqlWorld} {t : Tid} {e : SqlEffect}

theorem accesses_grow {a : Access} (h : a ∈ w.accesses) : a ∈ (w.execute t e).accesses := by
  simp only [SqlWorld.execute, SqlWorld.note]
  split
  · exact List.mem_cons_of_mem _ h
  · split
    · exact List.mem_cons_of_mem _ h
    · exact h
  · exact h

variable (reads : ∀ work, e ≠ .commit work)

include reads

theorem database_reads : (w.execute t e).database = w.database := by
  cases e with
  | commit work => exact absurd rfl (reads work)
  | _ => rfl

theorem overtaken_reads {u : Tid} :
    Overtaken worker u id (w.execute t e).accesses ↔ Overtaken worker u id w.accesses := by
  cases e with
  | commit work => exact absurd rfl (reads work)
  | _ => rfl

end Reads

theorem Good.released {w : SqlWorld} {t : Tid} : Good worker id w t .released :=
  ⟨nofun, trivial, nofun, nofun⟩

theorem inv_moves {w w' : SqlWorld} {o v : Option Tid} {st : Statuses} {t : Tid} {c : RefundCall}
    {g : Stage} {b : Bool} (inv : Inv worker id w o st) (books : Books id w')
    (others : ∀ u x, u ≠ t → Good worker id w u x → Good worker id w' u x)
    (self : Good worker id w' t g) :
    Inv worker id w' v (Function.update st t (some ⟨c, g, b⟩)) where
  books := books
  good := fun hu => by
    obtain ⟨rfl, rfl⟩ | ⟨hne, hu⟩ := update_cases hu
    · exact self
    · exact others _ _ hne (inv.good hu)

/-- What an effect of the service does to the worlds of the workers: other tasks keep their
locks, and the database is not touched. -/
structure Serves (t : Tid) (w w' : SqlWorld) : Prop where
  limit : ∀ n paymentId, (w'.lock n paymentId).limit = (w.lock n paymentId).limit
  holders : ∀ u n paymentId, u ≠ t → u ∈ (w.lock n paymentId).holders →
    u ∈ (w'.lock n paymentId).holders
  nextUuid : w.cluster.shared.nextUuid ≤ w'.cluster.shared.nextUuid
  database : w'.database = w.database
  accesses : w'.accesses = w.accesses

namespace Serves

variable {t : Tid} {w w' : SqlWorld}

theorem books (h : Serves t w w') (hw : Books id w) : Books id w' where
  locks := fun n paymentId => (h.limit n paymentId).trans (hw.locks n paymentId)
  identified := by
    rw [h.database]
    exact hw.identified
  drawn := fun r hr => Nat.lt_of_lt_of_le (hw.drawn r (h.database ▸ hr)) h.nextUuid
  balanced := by
    rw [h.database]
    exact hw.balanced

theorem good (h : Serves t w w') {u : Tid} {g : Stage} (hg : Good worker id w u g)
    (lock : ∀ {paymentId}, g.lock = some paymentId → u ∈ (w'.lock (worker u) paymentId).holders) :
    Good worker id w' u g where
  lock := lock
  sound := hg.sound.mono h.nextUuid
  selected := by
    rw [h.accesses]
    exact hg.selected
  current := by
    rw [h.accesses, h.database]
    exact hg.current

theorem inv (h : Serves t w w') {o v : Option Tid} {st : Statuses} {c : RefundCall} {g : Stage}
    {b : Bool} (hi : Inv worker id w o st) (self : Good worker id w' t g) :
    Inv worker id w' v (Function.update st t (some ⟨c, g, b⟩)) := by
  refine inv_moves hi (h.books hi.books) ?_ self
  intro u x hne hx
  exact h.good hx fun hl => h.holders _ _ _ hne (hx.lock hl)

theorem waits (h : Serves t w w') {o : Option Tid} {st : Statuses} (hi : Inv worker id w o st)
    (mine : ∀ n paymentId, t ∈ (w.lock n paymentId).holders →
      t ∈ (w'.lock n paymentId).holders) : Inv worker id w' none st := by
  refine ⟨h.books hi.books, fun {u x} hu => h.good (hi.good hu) fun hl => ?_⟩
  have held := (hi.good hu).lock hl
  by_cases same : u = t
  · subst same
    exact mine _ _ held
  · exact h.holders _ _ _ same held

theorem of_locks {n : ℕ} {v : World}
    (locks : v.process.refundLocks = (w.cluster.processes n).refundLocks)
    (nextUuid : w.cluster.shared.nextUuid ≤ v.shared.nextUuid) : Serves t w (w.setWorld n v) where
  limit := fun m paymentId => by rw [setWorld_lock locks]
  holders := fun u m paymentId _ hu => by rwa [setWorld_lock locks]
  nextUuid := nextUuid
  database := rfl
  accesses := rfl

/-- A worker's lock is replaced by one that keeps the other tasks inside. -/
theorem of_lock {n : ℕ} {paymentId : Uuid} {lock : Semaphore}
    (limit : lock.limit = (w.lock n paymentId).limit)
    (holders : ∀ u, u ≠ t → u ∈ (w.lock n paymentId).holders → u ∈ lock.holders) :
    Serves t w (w.setLock n paymentId lock) where
  limit := fun m other => by
    rw [setLock_lock]
    split
    · rename_i same
      obtain ⟨rfl, rfl⟩ := same
      exact limit
    · rfl
  holders := fun u m other hne hu => by
    rw [setLock_lock]
    split
    · rename_i same
      obtain ⟨rfl, rfl⟩ := same
      exact holders u hne hu
    · exact hu
  nextUuid := Nat.le_refl _
  database := rfl
  accesses := rfl

end Serves

end PySwitch.SqlRefunds
