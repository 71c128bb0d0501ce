import PySwitch.Frame

namespace PySwitch

open Async

variable {cfg : Config} {profile : Profile} {s : ServiceState} {l : ServiceLabel} {t : Tid}
  {w : World}

theorem allowRequest_reply {p : Provider} {r : Bool × CircuitState × CircuitState}
    (h : Delivered (system cfg profile) s l t (.circuit (.allowRequest p)) (.reply r w)) :
    ∃ now, l = .enter t (.at now) ∧ s.running = some t ∧
      r = (((s.world.circuit p).allowRequest now).1, (s.world.circuit p).state,
        ((s.world.circuit p).allowRequest now).2.state) ∧
      w = if ((s.world.circuit p).allowRequest now).1 then
        (s.world.moveCircuit t p ((s.world.circuit p).allowRequest now).2).note
          (.permitted t p ((s.world.circuit p).allowRequest now).2.state)
        else s.world.moveCircuit t p ((s.world.circuit p).allowRequest now).2 := by
  obtain ⟨i, hl, running, ha⟩ | ⟨i, -, -, ha⟩ := h.answer
  · cases i with
    | «at» now =>
      obtain ⟨rfl, rfl⟩ := Answer.reply.inj ha
      exact ⟨now, hl, running, rfl, rfl⟩
    | _ => cases ha
  · cases ha

theorem recordSuccess_reply {p : Provider} {r : CircuitState × CircuitState}
    (h : Delivered (system cfg profile) s l t (.circuit (.recordSuccess p)) (.reply r w)) :
    s.running = some t ∧
      r = ((s.world.circuit p).state, (s.world.circuit p).recordSuccess.state) ∧
      w = s.world.moveCircuit t p (s.world.circuit p).recordSuccess := by
  obtain ⟨i, hl, running, ha⟩ | ⟨i, -, -, ha⟩ := h.answer
  · cases i with
    | go =>
      obtain ⟨rfl, rfl⟩ := Answer.reply.inj ha
      exact ⟨running, rfl, rfl⟩
    | _ => cases ha
  · cases ha

theorem recordFailure_reply {p : Provider} {r : CircuitState × CircuitState}
    (h : Delivered (system cfg profile) s l t (.circuit (.recordFailure p)) (.reply r w)) :
    ∃ now, l = .enter t (.at now) ∧ s.running = some t ∧
      r = ((s.world.circuit p).state, ((s.world.circuit p).recordFailure now).state) ∧
      w = s.world.moveCircuit t p ((s.world.circuit p).recordFailure now) := by
  obtain ⟨i, hl, running, ha⟩ | ⟨i, -, -, ha⟩ := h.answer
  · cases i with
    | «at» now =>
      obtain ⟨rfl, rfl⟩ := Answer.reply.inj ha
      exact ⟨now, hl, running, rfl, rfl⟩
    | _ => cases ha
  · cases ha

theorem circuit_never_waits {e : CircuitEffect} :
    ¬ Delivered (system cfg profile) s l t (.circuit e) (.wait w) := by
  intro h
  obtain ⟨i, -, -, ha⟩ | ⟨i, -, -, ha⟩ := h.answer
  · cases e <;> cases i <;> cases ha
  · cases ha

theorem stats_never_waits {e : StatsEffect} :
    ¬ Delivered (system cfg profile) s l t (.stats e) (.wait w) := by
  intro h
  obtain ⟨i, -, -, ha⟩ | ⟨i, -, -, ha⟩ := h.answer
  · cases e <;> cases i <;> cases ha
  · cases ha

theorem now_never_waits : ¬ Delivered (system cfg profile) s l t (.host .now) (.wait w) := by
  intro h
  obtain ⟨i, -, -, ha⟩ | ⟨i, -, -, ha⟩ := h.answer
  · cases i <;> cases ha
  · cases i <;> cases ha

theorem release_never_waits {p : Provider} {n : ℕ} :
    ¬ Delivered (system cfg profile) s l t (.semaphore (.release p n)) (.wait w) := by
  intro h
  obtain ⟨i, -, -, ha⟩ | ⟨i, -, -, ha⟩ := h.answer
  · cases i <;> cases ha
  · cases i <;> cases ha

/-- Only a cancellation gets a task out of a semaphore's queue without a slot. -/
theorem semaphore_error {p : Provider} {n : ℕ} {x : Exn}
    (h : Delivered (system cfg profile) s l t (.semaphore (.acquire p n)) (.reply (.error x) w)) :
    x = .cancelled ∧ l = .resume t .cancel := by
  obtain ⟨i, -, -, ha⟩ | ⟨i, hl, -, ha⟩ := h.answer
  · obtain ⟨q, hq, -⟩ := Answer.lift_reply ha.symm
    obtain ⟨m, hm, -⟩ := Answer.lift_reply hq
    cases i with
    | go => simp only [Semaphore.enter] at hm; split at hm <;> cases hm
    | _ => cases hm
  · obtain ⟨q, hq, -⟩ := Answer.lift_reply ha.symm
    obtain ⟨m, hm, -⟩ := Answer.lift_reply hq
    cases i with
    | go => simp only [Semaphore.resume] at hm; split at hm <;> cases hm
    | cancel => cases hm; exact ⟨rfl, hl⟩
    | _ => cases hm

/-- A provider call ends when the provider answers or the task is cancelled. -/
theorem finishPayment_reply {p : Provider} {paymentId : Uuid}
    {r : Except Exn ProviderPaymentResult}
    (h : Delivered (system cfg profile) s l t (.provider (.finishPayment p paymentId))
      (.reply r w)) :
    (l = .resume t (.outcome r) ∨ l = .resume t .cancel ∧ r = .error .cancelled) ∧
      s.running = none ∧ w = s.world.note (.paymentEnded t p paymentId r) := by
  obtain ⟨i, -, -, ha⟩ | ⟨i, hl, idle, ha⟩ := h.answer
  · cases i <;> cases ha
  · cases i with
    | outcome answer =>
      obtain ⟨rfl, rfl⟩ := Answer.reply.inj ha
      exact ⟨.inl hl, idle, rfl⟩
    | cancel =>
      obtain ⟨rfl, rfl⟩ := Answer.reply.inj ha
      exact ⟨.inr ⟨hl, rfl⟩, idle, rfl⟩
    | _ => cases ha

theorem release_lock_reply {paymentId : Uuid} {r : Unit}
    (h : Delivered (system cfg profile) s l t (.refundLock (.release paymentId)) (.reply r w)) :
    w = Effect.setProcess s.world (RefundLockEffect.put s.world.process paymentId
      ((s.world.process.refundLocks paymentId).release t)) := by
  obtain ⟨i, -, -, ha⟩ | ⟨i, -, -, ha⟩ := h.answer
  · obtain ⟨q, hq, rfl⟩ := Answer.lift_reply ha.symm
    cases i <;> cases hq
    rfl
  · cases i <;> cases ha

theorem release_lock_never_waits {paymentId : Uuid} :
    ¬ Delivered (system cfg profile) s l t (.refundLock (.release paymentId)) (.wait w) := by
  intro h
  obtain ⟨i, -, -, ha⟩ | ⟨i, -, -, ha⟩ := h.answer
  · cases i <;> cases ha
  · cases i <;> cases ha

theorem acquire_lock_reply {paymentId : Uuid} {r : Except Exn Unit}
    (h : Delivered (system cfg profile) s l t (.refundLock (.acquire paymentId)) (.reply r w)) :
    ∃ lock, (s.world.process.refundLocks paymentId).Acquired t r lock ∧
      w = Effect.setProcess s.world (RefundLockEffect.put s.world.process paymentId lock) := by
  obtain ⟨i, -, -, ha⟩ | ⟨i, -, -, ha⟩ := h.answer
  · obtain ⟨q, hq, rfl⟩ := Answer.lift_reply ha.symm
    obtain ⟨m, hm, rfl⟩ := Answer.lift_reply hq
    exact ⟨m, Semaphore.enter_reply hm, rfl⟩
  · obtain ⟨q, hq, rfl⟩ := Answer.lift_reply ha.symm
    obtain ⟨m, hm, rfl⟩ := Answer.lift_reply hq
    exact ⟨m, Semaphore.resume_reply hm, rfl⟩

theorem acquire_lock_wait {paymentId : Uuid}
    (h : Delivered (system cfg profile) s l t (.refundLock (.acquire paymentId)) (.wait w)) :
    ∃ lock, (s.world.process.refundLocks paymentId).Admits lock ∧
      w = Effect.setProcess s.world (RefundLockEffect.put s.world.process paymentId lock) := by
  obtain ⟨i, -, -, ha⟩ | ⟨i, -, -, ha⟩ := h.answer
  · obtain ⟨q, hq, rfl⟩ := Answer.lift_wait ha.symm
    obtain ⟨m, hm, rfl⟩ := Answer.lift_wait hq
    exact ⟨m, Semaphore.enter_wait hm, rfl⟩
  · obtain ⟨q, hq, rfl⟩ := Answer.lift_wait ha.symm
    obtain ⟨m, hm, rfl⟩ := Answer.lift_wait hq
    exact absurd hm Semaphore.resume_never_waits

/-- The store of one process answers at once. -/
theorem store_answer (memory : profile.storage = .memory) {e : StoreEffect}
    {a : Answer e.Reply World}
    (h : Delivered (system cfg profile) s l t (.store e) a) : a = .refuse ∨
      a = .reply (s.world.store.answer e) (Effect.setStore s.world (s.world.store.commit e)) := by
  obtain ⟨i, -, -, ha⟩ | ⟨i, -, -, ha⟩ := h.answer
  · simp only [system, Effect.enter, memory] at ha
    cases i with
    | go => exact .inr ha
    | _ => exact .inl ha
  · simp only [system, Effect.resume, memory] at ha
    exact .inl ha

theorem store_reply (memory : profile.storage = .memory) {e : StoreEffect} {r : e.Reply}
    (h : Delivered (system cfg profile) s l t (.store e) (.reply r w)) :
    r = s.world.store.answer e ∧ w = Effect.setStore s.world (s.world.store.commit e) := by
  obtain ha | ha := store_answer memory h
  · cases ha
  · exact Answer.reply.inj ha

theorem store_never_waits (memory : profile.storage = .memory) {e : StoreEffect} :
    ¬ Delivered (system cfg profile) s l t (.store e) (.wait w) := by
  intro h
  obtain ha | ha := store_answer memory h <;> cases ha

/-- The exception a reply of the store carries. -/
def StoreEffect.raised : (e : StoreEffect) → e.Reply → Option Exn
  | .get _, .error x => some x
  | .getByIdempotency _, .error x => some x
  | .save _, .error x => some x
  | .saveWithEvents _ _, .error x => some x
  | .append _, .error x => some x
  | _, _ => none

/-- What an operation of any store can do: its work, or to raise with or without it. The
payments an external store returns are copies. -/
inductive StoreOutcome (profile : Profile) (l : ServiceLabel) (t : Tid)
    (store : InMemoryPaymentStore) : (e : StoreEffect) → e.Reply → InMemoryPaymentStore → Prop
  | done {e : StoreEffect} : StoreOutcome profile l t store e (store.answer e) (store.commit e)
  | copied {p : Payment} (external : profile.storage = .external) :
    StoreOutcome profile l t store (.reread p) p store
  | failed {e : StoreEffect} {r : e.Reply} {x : Exn} {stored : Bool}
      (external : profile.storage = .external)
      (failing : l = .enter t (.fail x stored) ∨ l = .resume t (.fail x stored))
      (raised : e.raised r = some x) :
    StoreOutcome profile l t store e r (if stored then store.commit e else store)

theorem external_outcome (external : profile.storage = .external) {e : StoreEffect} {r : e.Reply}
    {i : Input} {a m : InMemoryPaymentStore} (hl : l = .enter t i ∨ l = .resume t i)
    (h : ExternalStore.answer e i a = .reply r m) : StoreOutcome profile l t a e r m := by
  cases i with
  | go =>
    cases e with
    | reread p => cases h; exact .copied external
    | _ => cases h; exact .done
  | fail x stored =>
    have failed (hr : e.raised r = some x) (hm : m = if stored then a.commit e else a) :
        StoreOutcome profile l t a e r m := hm ▸ .failed external hl hr
    cases e with
    | get paymentId => cases h; exact failed rfl (by cases stored <;> rfl)
    | getByIdempotency key => cases h; exact failed rfl (by cases stored <;> rfl)
    | reread p => cases h
    | _ => cases h; exact failed rfl rfl
  | suspend => cases e <;> cases h
  | _ => cases e <;> cases h

theorem store_outcome {e : StoreEffect} {r : e.Reply}
    (h : Delivered (system cfg profile) s l t (.store e) (.reply r w)) :
    ∃ m, w = Effect.setStore s.world m ∧ StoreOutcome profile l t s.world.store e r m := by
  cases storage : profile.storage with
  | memory =>
    obtain ⟨rfl, rfl⟩ := store_reply storage h
    exact ⟨_, rfl, .done⟩
  | external =>
    obtain ⟨i, hl, -, ha⟩ | ⟨i, hl, -, ha⟩ := h.answer
    · simp only [system, Effect.enter, storage] at ha
      obtain ⟨m, hm, rfl⟩ := Answer.lift_reply ha.symm
      exact ⟨m, rfl, external_outcome storage (.inl hl) hm⟩
    · simp only [system, Effect.resume, storage] at ha
      obtain ⟨m, hm, rfl⟩ := Answer.lift_reply ha.symm
      exact ⟨m, rfl, external_outcome storage (.inr hl) hm⟩

/-- A store that raises was made to by the environment. -/
theorem store_raised {e : StoreEffect} {r : e.Reply} {x : Exn} (raised : e.raised r = some x)
    (h : Delivered (system cfg profile) s l t (.store e) (.reply r w)) :
    ∃ stored, l = .enter t (.fail x stored) ∨ l = .resume t (.fail x stored) := by
  obtain ⟨_, -, outcome⟩ := store_outcome h
  cases outcome with
  | done => cases e <;> cases raised
  | copied external => cases raised
  | @failed _ _ y stored external failing same =>
    obtain rfl := Option.some.inj (raised.symm.trans same)
    exact ⟨stored, failing⟩

theorem store_wait {e : StoreEffect}
    (h : Delivered (system cfg profile) s l t (.store e) (.wait w)) : w = s.world := by
  have external {i : Input} {a m : InMemoryPaymentStore}
      (ha : ExternalStore.answer e i a = .wait m) : m = a := by
    cases e <;> cases i <;> cases ha <;> rfl
  cases storage : profile.storage with
  | memory => exact absurd h (store_never_waits storage)
  | external =>
    obtain ⟨i, -, -, ha⟩ | ⟨i, -, -, ha⟩ := h.answer
    · simp only [system, Effect.enter, storage] at ha
      obtain ⟨m, hm, rfl⟩ := Answer.lift_wait ha.symm
      rw [external hm]
      rfl
    · simp only [system, Effect.resume, storage] at ha
      obtain ⟨m, hm, rfl⟩ := Answer.lift_wait ha.symm
      rw [external hm]
      rfl

theorem uuid4_reply {id : Uuid}
    (h : Delivered (system cfg profile) s l t (.host .uuid4) (.reply id w)) :
    id = s.world.shared.nextUuid ∧
      w = { s.world with shared.nextUuid := s.world.shared.nextUuid + 1 } := by
  obtain ⟨i, -, -, ha⟩ | ⟨i, -, -, ha⟩ := h.answer
  · obtain ⟨q, hq, rfl⟩ := Answer.lift_reply ha.symm
    cases i <;> cases hq
    exact ⟨rfl, rfl⟩
  · cases i <;> cases ha

theorem uuid4_never_waits : ¬ Delivered (system cfg profile) s l t (.host .uuid4) (.wait w) := by
  intro h
  obtain ⟨i, -, -, ha⟩ | ⟨i, -, -, ha⟩ := h.answer
  · cases i <;> cases ha
  · cases i <;> cases ha

theorem finishRefund_reply {p : Provider} {paymentId : Uuid} {amount : ℤ}
    {r : Except Exn ProviderPaymentResult}
    (h : Delivered (system cfg profile) s l t (.provider (.finishRefund p paymentId amount))
      (.reply r w)) :
    s.running = none ∧ w = s.world.note (.refundEnded t p paymentId amount r) := by
  obtain ⟨i, -, -, ha⟩ | ⟨i, -, idle, ha⟩ := h.answer
  · cases i <;> cases ha
  · cases i <;> cases ha <;> exact ⟨idle, rfl⟩

theorem startRefund_reply {p : Provider} {paymentId : Uuid} {amount : ℤ} {r : Unit}
    (h : Delivered (system cfg profile) s l t (.provider (.startRefund p paymentId amount))
      (.reply r w)) : w = s.world := by
  obtain ⟨i, -, -, ha⟩ | ⟨i, -, -, ha⟩ := h.answer
  · cases i <;> cases ha
    rfl
  · cases ha

theorem startPayment_reply {p : Provider} {paymentId : Uuid} {amount : ℤ} {currency token : String}
    {r : Unit} (h : Delivered (system cfg profile) s l t
      (.provider (.startPayment p paymentId amount currency token)) (.reply r w)) :
    w = s.world.note (.paymentStarted t p paymentId) := by
  obtain ⟨i, -, -, ha⟩ | ⟨i, -, -, ha⟩ := h.answer
  · cases i <;> cases ha
    rfl
  · cases ha

/-- Only a cancellation wakes a task from its sleep with an exception. -/
theorem sleep_error {delay : Seconds} {x : Exn}
    (h : Delivered (system cfg profile) s l t (.host (.sleep delay)) (.reply (.error x) w)) :
    x = .cancelled ∧ l = .resume t .cancel := by
  obtain ⟨i, -, -, ha⟩ | ⟨i, hl, -, ha⟩ := h.answer
  · obtain ⟨q, hq, -⟩ := Answer.lift_reply ha.symm
    cases i <;> cases hq
  · obtain ⟨q, hq, -⟩ := Answer.lift_reply ha.symm
    cases i <;> cases hq
    exact ⟨rfl, hl⟩

theorem provider_wait {e : ProviderEffect}
    (h : Delivered (system cfg profile) s l t (.provider e) (.wait w)) : w = s.world := by
  obtain ⟨i, -, -, ha⟩ | ⟨i, -, -, ha⟩ := h.answer
  · cases e with
    | choose healthy =>
      cases healthy <;> cases i <;> try cases ha
      simp only [system, Effect.enter, ProviderEffect.enter] at ha
      split at ha <;> cases ha
    | _ => cases i <;> cases ha <;> rfl
  · cases e <;> cases i <;> cases ha

/-- A command of Redis is carried out when its task is resumed. -/
theorem redis_reply {e : RedisEffect} {r : e.Reply}
    (h : Delivered (system cfg profile) s l t (.redis e) (.reply r w)) :
    ∃ m, Redis.resume e .go s.world.shared.redis = .reply r m ∧ w = Effect.setRedis s.world m := by
  obtain ⟨i, -, -, ha⟩ | ⟨i, -, -, ha⟩ := h.answer
  · obtain ⟨m, hm, -⟩ := Answer.lift_reply ha.symm
    cases i <;> cases hm
  · obtain ⟨m, hm, rfl⟩ := Answer.lift_reply ha.symm
    cases i with
    | go => exact ⟨m, hm, rfl⟩
    | _ => cases e <;> cases hm

theorem redis_wait {e : RedisEffect}
    (h : Delivered (system cfg profile) s l t (.redis e) (.wait w)) : w = s.world := by
  obtain ⟨i, -, -, ha⟩ | ⟨i, -, -, ha⟩ := h.answer
  · obtain ⟨m, hm, rfl⟩ := Answer.lift_wait ha.symm
    cases i <;> cases hm
    rfl
  · obtain ⟨m, hm, rfl⟩ := Answer.lift_wait ha.symm
    cases e with
    | claim redisKey fingerprint ttl =>
      cases i with
      | go =>
        simp only [Redis.resume, Redis.claimScript] at hm
        split at hm
        · cases hm
        · split at hm
          · cases hm
          · split at hm <;> cases hm
            rfl
      | _ => cases hm
    | _ => cases i <;> cases hm

section Memory

open MemoryIdempotencyCoordinator

variable (memory : profile.coordinator = .memory)

include memory

theorem acquire_direct_reply {key : RecordKey} {fingerprint : String}
    {r : Except Exn IdempotencyDecision}
    (h : Delivered (system cfg profile) s l t (.coordinator (.acquire key fingerprint))
      (.reply r w)) :
    ∃ c, s.world.process.idempotency.Decides key fingerprint r c ∧
      w = Effect.setIdempotency s.world c := by
  obtain ⟨i, -, -, ha⟩ | ⟨i, -, -, ha⟩ := h.answer
  · simp only [system, Effect.enter, memory] at ha
    obtain ⟨c, hc, rfl⟩ := Answer.lift_reply ha.symm
    cases i with
    | go => exact ⟨c, acquire_reply hc, rfl⟩
    | _ => cases hc
  · simp only [system, Effect.resume, memory] at ha
    obtain ⟨c, hc, rfl⟩ := Answer.lift_reply ha.symm
    cases i with
    | go =>
      simp only [MemoryIdempotencyCoordinator.resume] at hc
      split at hc
      · split at hc
        · exact ⟨c, decides_forget (acquire_reply hc), rfl⟩
        · cases hc
      · cases hc
    | cancel =>
      cases hc
      exact ⟨s.world.process.idempotency.forget t, .cancelled ⟨rfl, rfl⟩, rfl⟩
    | _ => cases hc

theorem acquire_direct_wait {key : RecordKey} {fingerprint : String}
    (h : Delivered (system cfg profile) s l t (.coordinator (.acquire key fingerprint)) (.wait w)) :
    ∃ c, s.world.process.idempotency.Unmoved c ∧ w = Effect.setIdempotency s.world c := by
  obtain ⟨i, -, -, ha⟩ | ⟨i, -, -, ha⟩ := h.answer
  · simp only [system, Effect.enter, memory] at ha
    obtain ⟨c, hc, rfl⟩ := Answer.lift_wait ha.symm
    cases i with
    | go => exact ⟨c, acquire_wait hc, rfl⟩
    | _ => cases hc
  · simp only [system, Effect.resume, memory] at ha
    obtain ⟨c, hc, rfl⟩ := Answer.lift_wait ha.symm
    cases i with
    | go =>
      simp only [MemoryIdempotencyCoordinator.resume] at hc
      split at hc
      · split at hc
        · have unmoved := acquire_wait hc
          exact ⟨c, ⟨unmoved.records, unmoved.events⟩, rfl⟩
        · cases hc
      · cases hc
    | _ => cases hc

theorem complete_direct {key : RecordKey} {fingerprint : String} {paymentId : Uuid}
    {r : Except Exn Unit}
    (h : Delivered (system cfg profile) s l t
      (.coordinator (.complete key fingerprint paymentId)) (.reply r w)) :
    r = (s.world.process.idempotency.complete key fingerprint paymentId).1 ∧
      w = Effect.setIdempotency s.world
        (s.world.process.idempotency.complete key fingerprint paymentId).2 := by
  obtain ⟨i, -, -, ha⟩ | ⟨i, -, -, ha⟩ := h.answer
  · simp only [system, Effect.enter, memory] at ha
    obtain ⟨c, hc, rfl⟩ := Answer.lift_reply ha.symm
    cases i <;> cases hc
    exact ⟨rfl, rfl⟩
  · simp only [system, Effect.resume, memory] at ha
    obtain ⟨c, hc, -⟩ := Answer.lift_reply ha.symm
    cases hc

theorem abort_direct {key : RecordKey} {fingerprint : String} {r : Except Exn Unit}
    (h : Delivered (system cfg profile) s l t (.coordinator (.abort key fingerprint))
      (.reply r w)) :
    r = .ok () ∧ w = Effect.setIdempotency s.world
      (s.world.process.idempotency.abort key fingerprint) := by
  obtain ⟨i, -, -, ha⟩ | ⟨i, -, -, ha⟩ := h.answer
  · simp only [system, Effect.enter, memory] at ha
    obtain ⟨c, hc, rfl⟩ := Answer.lift_reply ha.symm
    cases i <;> cases hc
    exact ⟨rfl, rfl⟩
  · simp only [system, Effect.resume, memory] at ha
    obtain ⟨c, hc, -⟩ := Answer.lift_reply ha.symm
    cases hc

/-- Only a claim makes a task wait at the coordinator of its process. -/
theorem coordinator_wait {e : CoordinatorEffect}
    (h : Delivered (system cfg profile) s l t (.coordinator e) (.wait w)) :
    ∃ key fingerprint, e = .acquire key fingerprint := by
  obtain ⟨i, -, -, ha⟩ | ⟨i, -, -, ha⟩ := h.answer
  · simp only [system, Effect.enter, memory] at ha
    obtain ⟨c, hc, rfl⟩ := Answer.lift_wait ha.symm
    cases e with
    | acquire key fingerprint => exact ⟨key, fingerprint, rfl⟩
    | _ => cases i <;> cases hc
  · simp only [system, Effect.resume, memory] at ha
    obtain ⟨c, hc, rfl⟩ := Answer.lift_wait ha.symm
    cases e with
    | acquire key fingerprint => exact ⟨key, fingerprint, rfl⟩
    | _ => cases hc

theorem complete_direct_reply {key : RecordKey} {fingerprint : String} {paymentId : Uuid}
    {r : Except Exn Unit}
    (h : Delivered (system cfg profile) s l t
      (.coordinator (.complete key fingerprint paymentId)) (.reply r w)) :
    r = .ok () ∨ ∃ message, r = .error (.idempotencyUnavailable message) := by
  obtain ⟨rfl, -⟩ := complete_direct memory h
  unfold MemoryIdempotencyCoordinator.complete
  split
  · exact .inr ⟨_, rfl⟩
  · split
    · exact .inr ⟨_, rfl⟩
    · exact .inl rfl

end Memory

end PySwitch
