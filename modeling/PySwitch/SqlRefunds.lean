import PySwitch.SqlInvariant

namespace PySwitch.SqlRefunds

open Async Program Service
open SqlAlchemyPaymentRepository

variable {worker : Tid → ℕ} {id : Uuid}

section Step

variable {profile : Profile} {cfg : Config} {s : WorkersState} {l : WorkersLabel} {t : Tid}
  {c : RefundCall} {g : Stage} {w : SqlWorld} {b : Bool} {v : Option Tid}

/-- An effect of the service is answered in the world of the worker. -/
theorem service_answer {e : Effect} {a : Answer e.Reply SqlWorld}
    (h : Delivered (workers profile worker cfg) s l t (.service e) a) :
    ∃ s' l' a', s'.world = s.world.cluster.world (worker t) ∧
      Delivered (system cfg profile) s' l' t e a' ∧ a = a'.lift (s.world.setWorld (worker t)) := by
  obtain ⟨i, -, -, rfl⟩ | ⟨i, -, -, rfl⟩ := h.answer
  · obtain ⟨s', l', same, delivered⟩ := answered_alone cfg (.inl rfl)
    exact ⟨s', l', _, same, delivered, rfl⟩
  · obtain ⟨s', l', same, delivered⟩ := answered_alone cfg (.inr rfl)
    exact ⟨s', l', _, same, delivered, rfl⟩

theorem service_reply {e : Effect} {r : e.Reply}
    (h : Delivered (workers profile worker cfg) s l t (.service e) (.reply r w)) :
    ∃ s' l' v', s'.world = s.world.cluster.world (worker t) ∧
      Delivered (system cfg profile) s' l' t e (.reply r v') ∧
      w = s.world.setWorld (worker t) v' := by
  obtain ⟨s', l', a', same, delivered, ha⟩ := service_answer h
  obtain ⟨v', rfl, rfl⟩ := Answer.lift_reply ha.symm
  exact ⟨s', l', v', same, delivered, rfl⟩

theorem service_wait {e : Effect}
    (h : Delivered (workers profile worker cfg) s l t (.service e) (.wait w)) :
    ∃ s' l' v', s'.world = s.world.cluster.world (worker t) ∧
      Delivered (system cfg profile) s' l' t e (.wait v') ∧
      w = s.world.setWorld (worker t) v' := by
  obtain ⟨s', l', a', same, delivered, ha⟩ := service_answer h
  obtain ⟨v', rfl, rfl⟩ := Answer.lift_wait ha.symm
  exact ⟨s', l', v', same, delivered, rfl⟩

theorem sql_reply {e : SqlEffect} {r : e.Reply}
    (h : Delivered (workers profile worker cfg) s l t (.sql e) (.reply r w)) :
    l = .resume t .go ∧ r = s.world.database.answer e ∧ w = s.world.execute t e := by
  obtain ⟨i, -, -, ha⟩ | ⟨i, hl, -, ha⟩ := h.answer
  · cases i <;> cases ha
  · cases i <;> cases ha
    exact ⟨hl, rfl, rfl⟩

theorem sql_wait {e : SqlEffect}
    (h : Delivered (workers profile worker cfg) s l t (.sql e) (.wait w)) : w = s.world := by
  obtain ⟨i, -, -, ha⟩ | ⟨i, -, -, ha⟩ := h.answer
  · cases i <;> cases ha
    rfl
  · cases i <;> cases ha

variable (inv : Inv worker id s.world s.running (discipline.statuses s))
  (ht : discipline.statuses s t = some ⟨c, g, false⟩)

include inv ht

theorem inv_serves {v' : World} {g' : Stage}
    (locks : v'.process.refundLocks = (s.world.cluster.processes (worker t)).refundLocks)
    (nextUuid : s.world.cluster.shared.nextUuid ≤ v'.shared.nextUuid)
    (lock : ∀ {paymentId}, g'.lock = some paymentId → g.lock = some paymentId)
    (sound : g'.Sound v'.shared.nextUuid) (reading : g'.reading = some id → g.reading = some id)
    (current : g'.reading = some id → g.Current s.world.database → g'.Current s.world.database) :
    Inv worker id (s.world.setWorld (worker t) v') v
      (Function.update (discipline.statuses s) t (some ⟨c, g', b⟩)) := by
  have good := inv.good ht
  refine (Serves.of_locks locks nextUuid).inv inv ⟨fun hl => ?_, sound, ?_, ?_⟩
  · rw [setWorld_lock locks]
    exact good.lock (lock hl)
  · exact fun hr => good.selected (reading hr)
  · exact fun hr fresh => current hr (good.current (reading hr) fresh)

theorem inv_uuid4 {r : Uuid}
    (h : Delivered (workers profile worker cfg) s l t (.service (.host .uuid4)) (.reply r w)) :
    Inv worker id w v (Function.update (discipline.statuses s) t
      (some ⟨c, next g (.host .uuid4) r, b⟩)) := by
  obtain ⟨s', l', v', same, delivered, rfl⟩ := service_reply h
  obtain ⟨rfl, rfl⟩ := uuid4_reply delivered
  rw [same]
  have sound := (inv.good ht).sound
  have later := Nat.le_succ s.world.cluster.shared.nextUuid
  cases g with
  | returned p amount =>
    exact inv_serves inv ht rfl later (fun hl => hl) ⟨sound.1, Nat.lt_succ_self _, sound.2⟩
      (fun hr => hr) (fun _ hc => hc)
  | _ =>
    exact inv_serves inv ht rfl later (fun hl => hl) (sound.mono later) (fun hr => hr)
      (fun _ hc => hc)

theorem inv_acquire {paymentId : Uuid} {r : Except Exn Unit}
    (hok : ok g (.refundLock (.acquire paymentId)))
    (h : Delivered (workers profile worker cfg) s l t (.service (.refundLock (.acquire paymentId)))
      (.reply r w)) :
    Inv worker id w v (Function.update (discipline.statuses s) t
      (some ⟨c, next g (.refundLock (.acquire paymentId)) r, b⟩)) := by
  obtain ⟨s', l', v', same, delivered, rfl⟩ := service_reply h
  obtain ⟨lock, ⟨admits, holds⟩, rfl⟩ := acquire_lock_reply delivered
  rw [same] at admits ⊢
  have serves : Serves t s.world (s.world.setLock (worker t) paymentId lock) :=
    .of_lock admits.limit fun u _ hu => admits.holders u hu
  cases g with
  | queued =>
    cases r with
    | error x => exact serves.inv inv ⟨nofun, trivial, nofun, nofun⟩
    | ok =>
      refine serves.inv inv ⟨fun hl => ?_, trivial, nofun, nofun⟩
      obtain rfl := Option.some.inj hl
      rw [setLock_lock, if_pos ⟨rfl, rfl⟩]
      exact holds rfl
  | _ => exact hok.elim

theorem inv_release {paymentId : Uuid} {r : Unit}
    (h : Delivered (workers profile worker cfg) s l t (.service (.refundLock (.release paymentId)))
      (.reply r w)) :
    Inv worker id w v (Function.update (discipline.statuses s) t
      (some ⟨c, next g (.refundLock (.release paymentId)) r, b⟩)) := by
  obtain ⟨s', l', v', same, delivered, rfl⟩ := service_reply h
  obtain rfl := release_lock_reply delivered
  rw [same]
  obtain ⟨limit, freed⟩ := Semaphore.release_holders (s.world.lock (worker t) paymentId) t
  have serves : Serves t s.world (s.world.setLock (worker t) paymentId
      ((s.world.lock (worker t) paymentId).release t)) := by
    refine .of_lock limit fun u hne hu => ?_
    rw [freed]
    exact (List.mem_erase_of_ne hne).mpr hu
  have leaves : next g (.refundLock (.release paymentId)) r = .released := by cases g <;> rfl
  rw [leaves]
  exact serves.inv inv .released

theorem inv_startRefund {p : Provider} {paymentId : Uuid} {amount : ℤ} {r : Unit}
    (hok : ok g (.provider (.startRefund p paymentId amount)))
    (h : Delivered (workers profile worker cfg) s l t
      (.service (.provider (.startRefund p paymentId amount))) (.reply r w)) :
    Inv worker id w v (Function.update (discipline.statuses s) t
      (some ⟨c, next g (.provider (.startRefund p paymentId amount)) r, b⟩)) := by
  obtain ⟨s', l', v', same, delivered, rfl⟩ := service_reply h
  obtain rfl := startRefund_reply delivered
  rw [same]
  have sound := (inv.good ht).sound
  cases g with
  | loaded q =>
    exact inv_serves inv ht rfl (Nat.le_refl _) (fun hl => hl) ⟨sound, hok.2⟩ (fun hr => hr)
      (fun _ hc => hc)
  | _ => exact hok.elim

theorem inv_finishRefund {p : Provider} {paymentId : Uuid} {amount : ℤ}
    {r : Except Exn ProviderPaymentResult}
    (hok : ok g (.provider (.finishRefund p paymentId amount)))
    (h : Delivered (workers profile worker cfg) s l t
      (.service (.provider (.finishRefund p paymentId amount))) (.reply r w)) :
    Inv worker id w v (Function.update (discipline.statuses s) t
      (some ⟨c, next g (.provider (.finishRefund p paymentId amount)) r, b⟩)) := by
  obtain ⟨s', l', v', same, delivered, rfl⟩ := service_reply h
  obtain ⟨-, rfl⟩ := finishRefund_reply delivered
  rw [same]
  have sound := (inv.good ht).sound
  cases g with
  | awaiting q covered =>
    cases r with
    | ok result =>
      exact inv_serves inv ht rfl (Nat.le_refl _) (fun hl => hl) sound (fun hr => hr)
        (fun _ hc => hc)
    | error x =>
      exact inv_serves inv ht rfl (Nat.le_refl _) (fun hl => hl) sound.1 (fun hr => hr)
        (fun _ hc => hc)
  | _ => exact hok.elim

theorem inv_service {e : Effect} {r : e.Reply} (hok : (∀ a, e ≠ .store a) ∧ ok g e)
    (h : Delivered (workers profile worker cfg) s l t (.service e) (.reply r w)) :
    Inv worker id w v (Function.update (discipline.statuses s) t (some ⟨c, next g e r, b⟩)) := by
  obtain ⟨other, hok⟩ := hok
  cases e with
  | host e =>
    cases e with
    | uuid4 => exact inv_uuid4 inv ht h
    | now =>
      obtain ⟨s', l', v', same, delivered, rfl⟩ := service_reply h
      obtain rfl := (reply_touches delivered).resolve_right nofun
      rw [same]
      have stays : next g (.host .now) r = g := by cases g <;> rfl
      rw [stays]
      exact inv_serves inv ht rfl (Nat.le_refl _) (fun hl => hl) (inv.good ht).sound (fun hr => hr)
        (fun _ hc => hc)
    | _ => cases g <;> exact hok.elim
  | refundLock e =>
    cases e with
    | acquire paymentId => exact inv_acquire inv ht hok h
    | release paymentId => exact inv_release inv ht h
  | provider e =>
    cases e with
    | startRefund p paymentId amount => exact inv_startRefund inv ht hok h
    | finishRefund p paymentId amount => exact inv_finishRefund inv ht hok h
    | _ => cases g <;> exact hok.elim
  | store a => exact absurd rfl (other a)
  | _ => cases g <;> exact hok.elim

/-- A statement that only reads. -/
theorem inv_reads {e : SqlEffect} {g' : Stage} (reads : ∀ work, e ≠ .commit work)
    (lock : ∀ {paymentId}, g'.lock = some paymentId → g.lock = some paymentId)
    (sound : g'.Sound s.world.cluster.shared.nextUuid)
    (selected : g'.reading = some id → .selected t id ∈ (s.world.execute t e).accesses)
    (current : g'.reading = some id → ¬ Overtaken worker t id s.world.accesses →
      g'.Current s.world.database) :
    Inv worker id (s.world.execute t e) v
      (Function.update (discipline.statuses s) t (some ⟨c, g', b⟩)) := by
  have kept : (s.world.execute t e).database = s.world.database := database_reads reads
  have books : Books id (s.world.execute t e) := {
    inv.books with
    identified := by
      rw [kept]
      exact inv.books.identified
    drawn := by
      rw [kept]
      exact inv.books.drawn
    balanced := by
      rw [kept]
      exact inv.books.balanced }
  refine inv_moves inv books ?_ ⟨fun hl => (inv.good ht).lock (lock hl), sound, selected, ?_⟩
  · intro u x _ hx
    refine ⟨hx.lock, hx.sound, fun hr => accesses_grow (hx.selected hr), fun hr fresh => ?_⟩
    rw [kept]
    exact hx.current hr fun overtaken => fresh ((overtaken_reads reads).mpr overtaken)
  · intro hr fresh
    rw [kept]
    exact current hr fun overtaken => fresh ((overtaken_reads reads).mpr overtaken)

theorem inv_select {e : SqlEffect} (reads : ∀ work, e ≠ .commit work) (hok : sqlOk g e) :
    Inv worker id (s.world.execute t e) v (Function.update (discipline.statuses s) t
      (some ⟨c, sqlNext g e (s.world.database.answer e), b⟩)) := by
  have good := inv.good ht
  have grown (hr : g.reading = some id) : .selected t id ∈ (s.world.execute t e).accesses :=
    accesses_grow (good.selected hr)
  cases e with
  | commit work => exact absurd rfl (reads work)
  | selectMerchant merchantId =>
    cases g with
    | named p amount refundId =>
      exact inv_reads inv ht reads (fun hl => hl) good.sound grown good.current
    | _ => exact hok.elim
  | selectPaymentByKey key => cases g <;> exact hok.elim
  | selectPayment paymentId =>
    cases g with
    | locked locked =>
      obtain rfl : paymentId = locked := hok
      simp only [Database.answer]
      cases stored : s.world.database.payments paymentId with
      | none => exact inv_reads inv ht reads (fun hl => hl) trivial nofun nofun
      | some row =>
        have same : row.id = paymentId := inv.books.identified stored
        subst same
        refine inv_reads inv ht reads (fun hl => hl) trivial (fun hr => ?_) fun _ _ => stored
        obtain rfl := Option.some.inj hr
        exact List.mem_cons_self ..
    | named p amount refundId =>
      obtain rfl : paymentId = p.id := hok
      simp only [Database.answer]
      cases stored : s.world.database.payments p.id with
      | none =>
        exact inv_reads inv ht reads (fun hl => hl) good.sound grown
          fun hr fresh => ⟨good.current hr fresh, stored⟩
      | some row =>
        exact inv_reads inv ht reads (fun hl => hl) good.sound grown
          fun hr fresh => ⟨good.current hr fresh, stored⟩
    | _ => exact hok.elim
  | selectAttempts paymentId =>
    cases g with
    | selected row => exact inv_reads inv ht reads (fun hl => hl) trivial grown good.current
    | finding p amount refundId row =>
      exact inv_reads inv ht reads (fun hl => hl) good.sound grown good.current
    | _ => exact hok.elim
  | selectRefunds paymentId =>
    cases g with
    | joined row attempts =>
      obtain rfl : paymentId = row.id := hok
      refine inv_reads inv ht reads (fun hl => hl) ?_ grown
        fun hr fresh => ⟨row, good.current hr fresh, rfl, rfl, rfl⟩
      intro r hr
      obtain ⟨mem, own⟩ := List.mem_filter.mp hr
      exact ⟨of_decide_eq_true own, inv.books.drawn r mem⟩
    | finding p amount refundId row =>
      obtain rfl : paymentId = p.id := hok
      refine inv_reads inv ht reads (fun hl => hl) good.sound grown fun hr fresh => ?_
      obtain ⟨holds, stored⟩ := good.current hr fresh
      exact ⟨holds, stored, rfl⟩
    | _ => exact hok.elim

/-- A transaction writes its payment, balanced if it is the one looked at. -/
theorem inv_commit {q : Payment} {events : List EventEnvelope} {merchant : Option Seconds}
    {found : Option LoadedPayment} (reads : g.reading = some q.id)
    (drawn : Drawn s.world.cluster.shared.nextUuid q)
    (balanced : q.id = id →
      Balanced id (s.world.database.write (unitOfWork q events merchant found))) :
    Inv worker id (s.world.execute t (.commit (unitOfWork q events merchant found))) v
      (Function.update (discipline.statuses s) t (some ⟨c, .saved q.id, b⟩)) := by
  have good := inv.good ht
  have own : ∀ r ∈ q.refunds, r.paymentId = q.id := fun r hr => (drawn r hr).1
  have accesses : (s.world.execute t (.commit (unitOfWork q events merchant found))).accesses =
      .committed t q.id :: s.world.accesses := by
    simp only [SqlWorld.execute, SqlWorld.note, unitOfWork_paymentId]
  refine inv_moves inv ⟨inv.books.locks, ?_, ?_, ?_⟩ ?_ ⟨?_, trivial, fun reads => (by cases reads), fun reads => (by cases reads)⟩
  · exact write_identified inv.books.identified
  · intro r hr
    obtain hr | hr := List.mem_append.mp hr
    · exact inv.books.drawn r hr
    · exact (drawn r (mem_newRefunds hr)).2
  · by_cases same : q.id = id
    · exact balanced same
    · exact (write_other own (Ne.symm same)).balanced inv.books.balanced
  · intro u x hne hx
    refine ⟨hx.lock, hx.sound, fun hr => ?_, fun hr fresh => ?_⟩
    · rw [accesses]
      exact List.mem_cons_of_mem _ (hx.selected hr)
    · rw [accesses] at fresh
      by_cases same : q.id = id
      · by_cases colleague : worker t = worker u
        · -- both would hold the lock of the payment on their worker
          have mine := good.lock (Stage.lock_of_reading reads)
          have theirs := hx.lock (Stage.lock_of_reading hr)
          rw [colleague, same] at mine
          exact absurd (Semaphore.holder_unique (inv.books.locks _ _) theirs mine) hne
        · exact absurd (.inl ⟨same, colleague, hx.selected hr⟩) fresh
      · exact (write_other own (Ne.symm same)).current hr
          (hx.current hr fun overtaken => fresh (.inr overtaken))
  · intro paymentId hl
    obtain rfl := Option.some.inj hl
    exact good.lock (Stage.lock_of_reading reads)

theorem inv_write {work : UnitOfWork} (hok : sqlOk g (.commit work))
    (undisturbed : work.paymentId = some id → ¬ Overtaken worker t id s.world.accesses) :
    Inv worker id (s.world.execute t (.commit work)) v (Function.update (discipline.statuses s) t
      (some ⟨c, sqlNext g (.commit work) (), b⟩)) := by
  have good := inv.good ht
  cases g with
  | missing p amount refundId =>
    obtain ⟨q, applied, events, merchant, rfl⟩ := hok
    obtain ⟨drawn, fresh, covered⟩ := good.sound
    have same : q.id = p.id := applied.id_eq
    have unread : (Stage.missing p amount refundId).reading = some q.id := congrArg some same.symm
    have written : Inv worker id
        (s.world.execute t (.commit (unitOfWork q events merchant none))) v
        (Function.update (discipline.statuses s) t (some ⟨c, .saved q.id, b⟩)) := by
      apply inv_commit inv ht unread (applied_refunds applied drawn fresh)
      intro hq
      rw [unitOfWork_paymentId] at undisturbed
      obtain ⟨⟨row, stored, -⟩, missing⟩ := good.current (unread.trans (congrArg some hq))
        (undisturbed (congrArg some hq))
      cases missing.symm.trans stored
    rwa [same] at written
  | found p amount refundId row refunds =>
    obtain ⟨q, applied, events, merchant, attempts, rfl⟩ := hok
    obtain ⟨drawn, fresh, covered⟩ := good.sound
    have same : q.id = p.id := applied.id_eq
    have read : (Stage.found p amount refundId row refunds).reading = some q.id :=
      congrArg some same.symm
    have written : Inv worker id
        (s.world.execute t (.commit (unitOfWork q events merchant (some ⟨row, attempts, refunds⟩)))) v
        (Function.update (discipline.statuses s) t (some ⟨c, .saved q.id, b⟩)) := by
      apply inv_commit inv ht read (applied_refunds applied drawn fresh)
      intro hq
      rw [unitOfWork_paymentId] at undisturbed
      obtain ⟨holds, stored, existing⟩ := good.current (read.trans (congrArg some hq))
        (undisturbed (congrArg some hq))
      obtain rfl : p.id = id := same.symm.trans hq
      exact write_balanced inv.books.balanced holds stored existing drawn covered applied
        ⟨events, merchant, attempts, rfl⟩
    rwa [same] at written
  | saved paymentId =>
    obtain ⟨events, rfl⟩ := hok
    have agree (id : Uuid) : Agree id s.world.database
        (s.world.database.write { events := events }) := by
      refine ⟨rfl, ?_⟩
      show (s.world.database.refunds ++ []).filter _ = _
      rw [List.append_nil]
      rfl
    have books : Books id (s.world.execute t (.commit { events := events })) := {
      locks := inv.books.locks
      identified := inv.books.identified
      drawn := fun r hr => inv.books.drawn r (List.append_nil s.world.database.refunds ▸ hr)
      balanced := (agree id).balanced inv.books.balanced }
    refine inv_moves inv books ?_ ⟨good.lock, trivial, nofun, nofun⟩
    intro u x _ hx
    exact ⟨hx.lock, hx.sound, hx.selected, fun hr fresh => (agree id).current hr (hx.current hr fresh)⟩
  | _ => exact hok.elim

theorem inv_reply {e : WorkerEffect} {r : e.Reply} (undisturbed : Undisturbed worker id s l)
    (hok : workerOk g e) (h : Delivered (workers profile worker cfg) s l t e (.reply r w)) :
    Inv worker id w v (Function.update (discipline.statuses s) t
      (some ⟨c, workerNext g e r, b⟩)) := by
  cases e with
  | service e => exact inv_service inv ht hok h
  | sql e =>
    have reached := h.reached
    obtain ⟨rfl, rfl, rfl⟩ := sql_reply h
    cases e with
    | commit work =>
      have about : committing s t = some work := committing_of_at reached
      exact inv_write inv ht hok (undisturbed work about)
    | _ => exact inv_select inv ht (fun _ same => by cases same) hok

omit ht in
theorem reply_may {e : WorkerEffect} {r : e.Reply} (hok : workerOk g e)
    (h : Delivered (workers profile worker cfg) s l t e (.reply r w)) : workerMay e r := by
  cases e with
  | service e =>
    cases e with
    | store a => exact absurd rfl (hok.1 a)
    | _ => trivial
  | sql e =>
    obtain ⟨-, rfl, -⟩ := sql_reply h
    cases e with
    | selectPayment paymentId => exact fun row stored => inv.books.identified stored
    | _ => trivial

omit ht in
theorem inv_wait {e : WorkerEffect} (hok : workerOk g e)
    (h : Delivered (workers profile worker cfg) s l t e (.wait w)) :
    Inv worker id w none (discipline.statuses s) := by
  cases e with
  | sql e =>
    obtain rfl := sql_wait h
    exact ⟨inv.books, inv.good⟩
  | service e =>
    obtain ⟨other, hok⟩ := hok
    obtain ⟨s', l', v', same, delivered, rfl⟩ := service_wait h
    have unchanged (hv : v' = s'.world) :
        Inv worker id (s.world.setWorld (worker t) v') none (discipline.statuses s) := by
      subst hv
      rw [same]
      refine (Serves.of_locks (t := t) rfl (Nat.le_refl _)).waits inv fun n paymentId held => ?_
      rwa [setWorld_lock rfl]
    cases e with
    | host e =>
      cases e with
      | now => exact absurd delivered now_never_waits
      | uuid4 => exact absurd delivered uuid4_never_waits
      | _ => cases g <;> exact hok.elim
    | refundLock e =>
      cases e with
      | release paymentId => exact absurd delivered release_lock_never_waits
      | acquire paymentId =>
        obtain ⟨lock, admits, rfl⟩ := acquire_lock_wait delivered
        rw [same] at admits ⊢
        have serves : Serves t s.world (s.world.setLock (worker t) paymentId lock) :=
          .of_lock admits.limit fun u _ hu => admits.holders u hu
        refine serves.waits inv fun n other held => ?_
        show t ∈ ((s.world.setLock (worker t) paymentId lock).lock n other).holders
        rw [setLock_lock]
        split
        · rename_i here
          obtain ⟨rfl, rfl⟩ := here
          exact admits.holders t held
        · exact held
    | provider e => exact unchanged (provider_wait delivered)
    | store a => exact absurd rfl (other a)
    | _ => cases g <;> exact hok.elim

end Step

theorem inv_call {w : SqlWorld} {v : Option Tid} {st : Statuses} {t : Tid} {c : RefundCall}
    {b : Bool} (inv : Inv worker id w none st) :
    Inv worker id w v (Function.update st t (some ⟨c, .queued, b⟩)) :=
  inv_moves inv inv.books (fun _ _ _ hx => hx) ⟨nofun, trivial, nofun, nofun⟩

theorem inv_outside {profile : Profile} {cfg : Config} {a : ℕ × Outside} {w w' : SqlWorld}
    {st : Statuses} (inv : Inv worker id w none st)
    (h : (workers profile worker cfg).outside a w = some w') : Inv worker id w' none st := by
  obtain ⟨v', moved, rfl⟩ := Option.map_eq_some_iff.mp h
  have frame := outside_frame moved
  refine (Serves.of_locks (t := 0) frame.refundLocks (Nat.le_of_eq frame.nextUuid.symm)).waits inv
    fun n paymentId held => ?_
  rwa [setWorld_lock frame.refundLocks]

theorem maintains (profile : Profile) (worker : Tid → ℕ) (cfg : Config) (id : Uuid) :
    Maintains (workers profile worker cfg) (Undisturbed worker id) discipline (Inv worker id) where
  follows := run_follows profile worker cfg
  call := fun _ inv _ _ => inv_call inv
  reply := fun undisturbed inv ht hok h =>
    ⟨reply_may inv hok h, fun _ _ _ => inv_reply inv ht undisturbed hok h⟩
  wait := fun _ inv _ hok h => inv_wait inv hok h
  outside := fun _ inv h => inv_outside inv h

/-- Whatever the workers do to other payments, the refunds of one that no worker commits over
another's commit balance in every state of the database. -/
theorem refunds_balanced (profile : Profile) (worker : Tid → ℕ) (cfg : Config) {id : Uuid}
    {w : SqlWorld} (books : Books id w) {s : WorkersState}
    (h : Reaches (workers profile worker cfg) (Undisturbed worker id) (.empty w) s) :
    Balanced id s.world.database :=
  ((maintains profile worker cfg id).reaches_empty ⟨books, nofun⟩ h).2.books.balanced

section Examples

open Scenario

def statements (t : Tid) (n : ℕ) : List WorkersLabel :=
  (List.replicate n [.enter t .suspend, .resume t .go]).flatten

/-- Read the payment and have the provider refund an amount of it. -/
def charge (t : Tid) (amount : Option ℤ) : List WorkersLabel :=
  [.call t ⟨0, amount⟩, .enter t .go] ++ statements t 3 ++ [.enter t .go, .enter t .suspend]

/-- Record the refund and save the payment. -/
def record (t : Tid) : List WorkersLabel :=
  [.resume t (.outcome (.ok { reference := "refund" })), .enter t .go, .enter t (.at 0),
    .enter t .go, .enter t (.at 0)] ++ statements t 5 ++ [.enter t .go]

/-- A payment of 100, and workers that have done nothing yet. -/
def bought : SqlWorld where
  cluster := ⟨fun _ => Process.initial fragile [], { Shared.initial with nextUuid := 1 }⟩
  database := {
    merchants := Function.update (fun _ => none) "merchant" (some 0)
    payments := Function.update (fun _ => none) 0 (some {
      id := 0
      merchantId := "merchant"
      amount := 100
      currency := "EUR"
      status := .succeeded
      paymentMethodType := "card"
      idempotencyKey := "a"
      requestFingerprint := "fingerprint"
      provider := some "stripe"
      providerReference := some "reference"
      refundedAmount := 0
      createdAt := 0
      updatedAt := 0 })
    keys := Function.update (fun _ => none) ("merchant", "a") (some 0)
    attempts := []
    refunds := []
    outbox := [] }
  accesses := []

theorem bought_books : Books 0 bought where
  locks := fun _ _ => rfl
  identified := fun {paymentId row} stored => by
    have stored : Function.update (fun _ => none) 0 (some _) paymentId = some row := stored
    obtain ⟨rfl, rfl⟩ | ⟨-, stored⟩ := update_cases stored
    · rfl
    · cases stored
  drawn := nofun
  balanced := fun row stored => by
    obtain rfl := Option.some.inj stored
    decide

/-- Every task has a worker of its own. -/
abbrev separate : System Tid RefundCall WorkerEffect WorkerEffect.Reply (Except Exn Refund) Input
    (ℕ × Outside) SqlWorld := workers {} (fun t => t) (service ["stripe"] 1)

theorem refunds_balanced_in_turn : ∃ s : WorkersState,
    (s.world.database.refundsOf 0).map Refund.amount = [30, 70] ∧ Balanced 0 s.world.database := by
  have h : ∃ s ∈ runWhile separate (Undisturbed (fun t => t) 0)
      (charge 0 (some 30) ++ record 0 ++ charge 1 none ++ record 1) (.empty bought),
      (s.world.database.refundsOf 0).map Refund.amount = [30, 70] := by
    decide +kernel
  obtain ⟨s, moved, amounts⟩ := h
  exact ⟨s, amounts, refunds_balanced {} _ _ bought_books (runWhile_reaches _ moved)⟩

/-- Two workers refund the payment in full from what both have read. -/
theorem refund_lost : Books 0 bought ∧ ∃ s ∈ run separate
    (charge 0 none ++ charge 1 none ++ record 0 ++ record 1) (.empty bought),
    ¬ Balanced 0 s.world.database := by
  have h : ∃ s ∈ run separate (charge 0 none ++ charge 1 none ++ record 0 ++ record 1)
      (.empty bought), ∃ row ∈ s.world.database.payments 0, row.refundedAmount = 100 ∧
        ((s.world.database.refundsOf 0).map Refund.amount).sum = 200 := by
    decide +kernel
  obtain ⟨s, moved, row, stored, recorded, total⟩ := h
  refine ⟨bought_books, s, moved, fun balanced => ?_⟩
  have := (balanced row stored).1
  omega

end Examples

end PySwitch.SqlRefunds
