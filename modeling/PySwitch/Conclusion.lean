import PySwitch.Async.Termination
import PySwitch.OwnedClaims
import PySwitch.SlotQueues

namespace PySwitch.Conclusion

open Async

/-- A running task goes on, or the environment answers one that is suspended. -/
def Helps : ServiceLabel → Prop
  | .enter _ _ => True
  | .resume _ .cancel => False
  | .resume _ _ => True
  | _ => False

/-- What wakes a task does not depend on any other task. -/
def resting (profile : Profile) : Effect → Prop
  | .host (.sleep _) => True
  | .provider (.healthCheck _) => True
  | .provider (.finishPayment _ _) => True
  | .provider (.finishRefund _ _ _) => True
  | .store _ => profile.storage = .external
  | _ => False

section Step

variable {cfg : Config} {profile : Profile} {s : ServiceState} {t : Tid} {e : Effect} {w : World}

theorem enter_answers (memory : profile.coordinator = .memory) (t : Tid) (e : Effect) (w : World) :
    ∃ i, Effect.enter profile t e i w ≠ .refuse := by
  cases e with
  | host e =>
    cases e with
    | now => exact ⟨.at 0, fun h => by cases h⟩
    | random => exact ⟨.number 0, fun h => by cases h⟩
    | uuid4 => exact ⟨.go, fun h => by cases h⟩
    | sleep delay => exact ⟨.suspend, fun h => by cases h⟩
  | circuit e =>
    cases e with
    | recordSuccess p => exact ⟨.go, fun h => by cases h⟩
    | _ => exact ⟨.at 0, fun h => by cases h⟩
  | stats e =>
    cases e with
    | finishRequest p success latencyMs errorCode => exact ⟨.at 0, fun h => by cases h⟩
    | _ => exact ⟨.go, fun h => by cases h⟩
  | semaphore e =>
    refine ⟨.go, ?_⟩
    cases e with
    | acquire p n =>
      simp only [Effect.enter, SemaphoreEffect.enter, Semaphore.enter]
      split <;> exact fun h => by cases h
    | _ => exact fun h => by cases h
  | refundLock e =>
    refine ⟨.go, ?_⟩
    cases e with
    | acquire paymentId =>
      simp only [Effect.enter, RefundLockEffect.enter, Semaphore.enter]
      split <;> exact fun h => by cases h
    | release paymentId => exact fun h => by cases h
  | provider e =>
    cases e with
    | choose healthy =>
      cases healthy with
      | nil => exact ⟨.go, fun h => by cases h⟩
      | cons p rest => exact ⟨.pick 0, fun h => by cases h⟩
    | startPayment => exact ⟨.go, fun h => by cases h⟩
    | startRefund => exact ⟨.go, fun h => by cases h⟩
    | _ => exact ⟨.suspend, fun h => by cases h⟩
  | coordinator e =>
    refine ⟨.go, ?_⟩
    simp only [Effect.enter, memory]
    cases e with
    | acquire key fingerprint =>
      simp only [MemoryIdempotencyCoordinator.enter, MemoryIdempotencyCoordinator.acquire]
      repeat' split
      all_goals exact fun h => by cases h
    | _ => exact fun h => by cases h
  | redis e => exact ⟨.suspend, fun h => by cases h⟩
  | store e =>
    refine ⟨.go, ?_⟩
    simp only [Effect.enter]
    split
    · exact fun h => by cases h
    · cases e <;> exact fun h => by cases h

theorem suspends (memory : profile.coordinator = .memory) {l : ServiceLabel}
    (h : Delivered (system cfg profile) s l t e (.wait w)) :
    resting profile e ∨ (∃ q n, e = .semaphore (.acquire q n)) ∨
      (∃ paymentId, e = .refundLock (.acquire paymentId)) ∨
      (∃ key fingerprint, e = .coordinator (.acquire key fingerprint)) ∨ ∃ a, e = .redis a := by
  cases e with
  | host e =>
    cases e with
    | sleep delay => exact .inl trivial
    | now => exact absurd h now_never_waits
    | uuid4 => exact absurd h uuid4_never_waits
    | random =>
      obtain ⟨i, -, -, ha⟩ | ⟨i, -, -, ha⟩ := h.answer
      · cases i <;> cases ha
      · cases i <;> cases ha
  | circuit e => exact absurd h circuit_never_waits
  | stats e => exact absurd h stats_never_waits
  | semaphore e =>
    cases e with
    | acquire q n => exact .inr (.inl ⟨q, n, rfl⟩)
    | release q n => exact absurd h release_never_waits
    | current q =>
      obtain ⟨i, -, -, ha⟩ | ⟨i, -, -, ha⟩ := h.answer
      · cases i <;> cases ha
      · cases ha
  | refundLock e =>
    cases e with
    | acquire paymentId => exact .inr (.inr (.inl ⟨paymentId, rfl⟩))
    | release paymentId => exact absurd h release_lock_never_waits
  | provider e =>
    cases e with
    | choose healthy =>
      obtain ⟨i, -, -, ha⟩ | ⟨i, -, -, ha⟩ := h.answer
      · cases healthy with
        | nil => cases i <;> cases ha
        | cons p rest =>
          cases i with
          | pick index =>
            simp only [system, Effect.enter, ProviderEffect.enter] at ha
            split at ha <;> cases ha
          | _ => cases ha
      · cases ha
    | startPayment => exact absurd h Slots.start_never_waits
    | startRefund =>
      obtain ⟨i, -, -, ha⟩ | ⟨i, -, -, ha⟩ := h.answer
      · cases i <;> cases ha
      · cases ha
    | _ => exact .inl trivial
  | coordinator e =>
    obtain ⟨key, fingerprint, rfl⟩ := coordinator_wait memory h
    exact .inr (.inr (.inr (.inl ⟨key, fingerprint, rfl⟩)))
  | redis e => exact .inr (.inr (.inr (.inr ⟨e, rfl⟩)))
  | store e =>
    left
    cases storage : profile.storage with
    | memory => exact absurd h (store_never_waits storage)
    | external => exact storage

theorem resting_resumes (rests : resting profile e) (t : Tid) (w : World) :
    ∃ i r w', Helps (.resume t i) ∧ Effect.resume profile t e i w = .reply r w' := by
  cases e with
  | host e =>
    cases e with
    | sleep delay => exact ⟨.go, _, _, by trivial, rfl⟩
    | _ => exact rests.elim
  | provider e =>
    cases e with
    | healthCheck p => exact ⟨.healthy (.ok true), _, _, by trivial, rfl⟩
    | finishPayment p paymentId =>
      exact ⟨.outcome (.ok { reference := "reference" }), _, _, by trivial, rfl⟩
    | finishRefund p paymentId amount =>
      exact ⟨.outcome (.ok { reference := "reference" }), _, _, by trivial, rfl⟩
    | _ => exact rests.elim
  | store e =>
    have external : profile.storage = .external := rests
    refine ⟨.go, ?_⟩
    simp only [Effect.resume, external]
    cases e <;> exact ⟨_, _, by trivial, rfl⟩
  | _ => exact rests.elim

def Goes (cfg : Config) (profile : Profile) (s : ServiceState) : Prop :=
  ∃ l s', Helps l ∧ Productive (system cfg profile) s l s'

theorem goes_of_resume {i : Input} {r : e.Reply} (idle : s.running = none) (reached : s.At t e)
    (helps : Helps (.resume t i)) (answer : Effect.resume profile t e i s.world = .reply r w) :
    Goes cfg profile s := by
  obtain ⟨T, task, head⟩ := reached
  obtain ⟨k, code⟩ := Coroutine.perform_of_head head
  have delivered : Delivered (system cfg profile) s (.resume t i) t e (.reply r w) := by
    rw [← answer]
    exact .resume ⟨T, task, head⟩ idle
  exact ⟨_, _, helps, .reply delivered (step_resume _ idle task code answer)⟩

theorem goes_running (memory : profile.coordinator = .memory) (running : s.running = some t)
    (reached : s.At t e) : Goes cfg profile s := by
  obtain ⟨i, accepted⟩ := enter_answers memory t e s.world
  obtain ⟨T, task, head⟩ := reached
  obtain ⟨k, code⟩ := Coroutine.perform_of_head head
  have delivered : Delivered (system cfg profile) s (.enter t i) t e
      (Effect.enter profile t e i s.world) := .enter ⟨T, task, head⟩ running
  cases answer : Effect.enter profile t e i s.world with
  | refuse => exact absurd answer accepted
  | reply r w =>
    rw [answer] at delivered
    exact ⟨.enter t i, _, trivial, .reply delivered (step_enter _ running task code answer)⟩
  | wait w =>
    rw [answer] at delivered
    exact ⟨.enter t i, _, trivial,
      .wait running delivered (step_enter_wait task code running answer)⟩

end Step

section Reached

variable {cfg : Config} {profile : Profile} {circuit : CircuitBreaker}
  {concurrency : List (Provider × ℕ)} {s : ServiceState} {t : Tid} {e : Effect}
  (direct : cfg.coordinator = .direct) (memory : profile.coordinator = .memory)
  (h : Reaches (system cfg profile) (fun _ _ => True) (.empty (.initial circuit concurrency)) s)
  (idle : s.running = none)

include h idle

theorem waited (reached : s.At t e) :
    ∃ u l w, Delivered (system cfg profile) u l t e (.wait w) := by
  apply suspended_waited h reached
  rw [idle]
  exact fun h => by cases h

theorem goes_at_semaphore {q : Provider} {n : ℕ}
    (reached : s.At t (.semaphore (.acquire q n))) : Goes cfg profile s := by
  obtain ⟨kept, of, inv⟩ := (Slots.lines_maintained cfg profile).reaches_empty
    (Slots.lines_initial circuit concurrency) h
  obtain ⟨x, hx, chosen⟩ := Slots.chosen_of_at kept reached
  have waiting : Slots.places.InLine n s.running (Slots.discipline.statuses s) t := by
    refine ⟨?_, x, hx, q, chosen⟩
    rw [idle]
    exact fun h => by cases h
  obtain ⟨u, woken, -, y, hy, p, line⟩ | ⟨u, y, hy, p, inside⟩ :=
    (inv.queues n).next (inv.used hx (.inl chosen)).limit waiting
  · obtain ⟨e, reached, hok⟩ := Slots.at_of_stage kept hy (by rw [line]; exact fun h => by cases h)
    rw [line] at hok
    obtain rfl := Slots.ok_waiting hok
    apply goes_of_resume (i := .go) idle reached trivial
    simp only [Effect.resume, SemaphoreEffect.resume, Semaphore.resume, woken, if_true]
    rfl
  · have busy : y.phase ≠ .idle := by
      obtain at_ | at_ | at_ := inside <;> rw [at_] <;> exact fun h => by cases h
    obtain ⟨e, reached, hok⟩ := Slots.at_of_stage kept hy busy
    obtain ⟨v, l, w, suspended⟩ := waited h idle reached
    obtain at_ | at_ | at_ := inside
    · rw [at_] at hok
      obtain ⟨_, _, _, _, rfl⟩ := Slots.ok_granted hok
      exact absurd suspended Slots.start_never_waits
    · rw [at_] at hok
      obtain ⟨paymentId, rfl⟩ := Slots.ok_calling hok
      have rests : resting profile (.provider (.finishPayment p paymentId)) := trivial
      obtain ⟨i, r, w', helps, answer⟩ := resting_resumes rests u s.world
      exact goes_of_resume idle reached helps answer
    · rw [at_] at hok
      obtain rfl := Slots.ok_leaving hok
      exact absurd suspended release_never_waits

omit idle in
include direct in
theorem not_at_redis (a : RedisEffect) : ¬s.At t (.redis a) := by
  rintro ⟨T, task, head⟩
  have within : cfg.coordinator.Within fun e => ∃ a, e = .coordinator a := by
    rw [direct]
    exact Coordinator.direct_within
  have M := Locks.maintains cfg profile within fun a => by
    rintro ⟨b, hb⟩
    cases hb
  obtain ⟨kept, -⟩ := M.reaches_empty (Locks.inv_initial circuit concurrency) h
  obtain ⟨k, code⟩ := Coroutine.perform_of_head head
  have follows := kept t T task
  rw [code] at follows
  have hok : Locks.ok (Locks.scope _ T.call) ((Locks.discipline _).phase T) (.redis a) := follows.1
  generalize (Locks.discipline _).phase T = g at hok
  cases g with
  | away =>
    obtain scope | creating := hok
    · cases call : T.call with
      | create data =>
        rw [call] at scope
        obtain ⟨b, hb⟩ := scope
        cases hb
      | _ =>
        rw [call] at scope
        exact scope
    · exact creating
  | _ => exact hok

include memory

theorem goes_at_lock {paymentId : Uuid} (reached : s.At t (.refundLock (.acquire paymentId))) :
    Goes cfg profile s := by
  have M := Locks.maintains cfg profile cfg.coordinator.within_coordinating fun _ => id
  obtain ⟨kept, -⟩ := M.reaches_empty (Locks.inv_initial circuit concurrency) h
  have suspended : s.running ≠ some t := by
    rw [idle]
    exact fun h => by cases h
  obtain ⟨u, past | ⟨waiting, woken⟩⟩ :=
    (Locks.refunds_serialised cfg profile circuit concurrency h).served reached suspended
  · obtain ⟨x, hx, inside⟩ := (Locks.past_iff kept).mp past
    obtain ⟨T, amount, e, task, -, head, -⟩ := past
    obtain ⟨k, code⟩ := Coroutine.perform_of_head head
    have at_ : s.At u e := ⟨T, task, head⟩
    have follows := kept u T task
    rw [code] at follows
    have hok := follows.1
    obtain rfl := Option.some.inj (((Locks.discipline _).statuses_of_task task).symm.trans hx)
    have phase : (Locks.discipline Effect.coordinating).phase T = .inside paymentId := inside
    rw [phase] at hok
    obtain ⟨v, l, w, waited⟩ := waited h idle at_
    obtain rests | ⟨q, n, rfl⟩ | ⟨other, rfl⟩ | ⟨key, fingerprint, rfl⟩ | ⟨a, rfl⟩ :=
      suspends memory waited
    · obtain ⟨i, r, w', helps, answer⟩ := resting_resumes rests u s.world
      exact goes_of_resume idle at_ helps answer
    · exact hok.elim
    · exact hok.elim
    · exact hok.elim
    · exact hok.elim
  · apply goes_of_resume (i := .go) idle waiting trivial
    simp only [Effect.resume, RefundLockEffect.resume, Semaphore.resume, woken, if_true]
    rfl

include direct

theorem goes_suspended (reached : s.At t e)
    (other : ∀ key fingerprint, e ≠ .coordinator (.acquire key fingerprint)) :
    Goes cfg profile s := by
  obtain ⟨u, l, w, waited⟩ := waited h idle reached
  obtain rests | ⟨q, n, rfl⟩ | ⟨paymentId, rfl⟩ | ⟨key, fingerprint, rfl⟩ | ⟨a, rfl⟩ :=
    suspends memory waited
  · obtain ⟨i, r, w', helps, answer⟩ := resting_resumes rests t s.world
    exact goes_of_resume idle reached helps answer
  · exact goes_at_semaphore h idle reached
  · exact goes_at_lock memory h idle reached
  · exact absurd rfl (other key fingerprint)
  · exact absurd reached (not_at_redis direct h a)

/-- Where a key has an unfinished record, its owner is not in `acquire`, and some task can go
on. -/
theorem goes_at_record {key : RecordKey} {r : IdempotencyRecord}
    (found : s.world.process.idempotency.records key = some r) (unfinished : r.completed = false) :
    Goes cfg profile s := by
  obtain ⟨kept, inv⟩ := Owner.among_reached direct memory h
  obtain ⟨u, ⟨T, data, task, call, -, -, open_, holding⟩, -⟩ :=
    Owner.owner_of_record kept inv found unfinished
  have follows := kept u T task
  obtain ⟨task, -⟩ := Owner.creating_some task
  cases code : T.code with
  | done a => simp [code, Coroutine.isDone] at open_
  | perform e k =>
    have at_ : s.At u e := ⟨T, task, by rw [code]; rfl⟩
    apply goes_suspended direct memory h idle at_
    rintro key' fingerprint' rfl
    rw [holding, code, call] at follows
    exact follows.1

omit h idle direct memory in
theorem acquire_answers (c : MemoryIdempotencyCoordinator) (t : Tid) (key : RecordKey)
    (fingerprint : String) : (∃ r c', c.acquire t key fingerprint = .reply r c') ∨
      ∃ r, c.records key = some r ∧ r.completed = false := by
  unfold MemoryIdempotencyCoordinator.acquire
  cases found : c.records key with
  | none => exact .inl ⟨_, _, rfl⟩
  | some r =>
    by_cases other : r.fingerprint ≠ fingerprint
    · exact .inl ⟨_, _, if_pos other⟩
    · cases completed : r.completed with
      | true => exact .inl ⟨_, _, (if_neg other).trans (if_pos completed)⟩
      | false => exact .inr ⟨r, rfl, completed⟩

/-- A task that waits for a key goes on, or the owner of the key does. -/
theorem goes_at_acquire {key : RecordKey} {fingerprint : String}
    (reached : s.At t (.coordinator (.acquire key fingerprint))) : Goes cfg profile s := by
  obtain ⟨kept, inv⟩ := Owner.among_reached direct memory h
  have locks := Locks.maintains cfg profile cfg.coordinator.within_coordinating fun _ => id
  have seen : (Owner.creating s).At t (.coordinator (.acquire key fingerprint)) := by
    obtain ⟨T, task, head⟩ := reached
    refine ⟨T, Owner.creating_tasks ?_ task, head⟩
    by_contra other
    exact Owner.apart_of_other (locks.reaches_empty (Locks.inv_initial circuit concurrency) h).1
      task head (Bool.eq_false_of_not_eq_true other) _ rfl
  have suspended : (Owner.creating s).running ≠ some t := by
    show s.running ≠ some t
    rw [idle]
    exact fun h => by cases h
  have forgotten : Owner.NobodyForgotten Effect.coordinator (fun w => w.process.idempotency)
      (Owner.creating s) := Owner.forgotten_of_inv kept inv
  obtain ⟨event, waiting, isSet | ⟨-, r, found, unfinished, -⟩⟩ := forgotten seen suspended
  · obtain ⟨r, c, answer⟩ | ⟨r, found, unfinished⟩ :=
      acquire_answers (s.world.process.idempotency.forget t) t key fingerprint
    · apply goes_of_resume (i := .go) (r := r) (w := Effect.setIdempotency s.world c) idle reached
        trivial
      replace waiting : s.world.process.idempotency.waiting t = some event := waiting
      replace isSet : s.world.process.idempotency.isSet event = true := isSet
      simp only [Effect.resume, memory, MemoryIdempotencyCoordinator.resume, waiting, isSet,
        if_true, answer, Answer.lift]
    · exact goes_at_record direct memory h idle found unfinished
  · exact goes_at_record direct memory h idle found unfinished

end Reached

/-- Whatever a process has been called for, and wherever calls have been cancelled: as long as
calls are under way one of them can go on, and however they go on all of them come to an end. -/
theorem calls_conclude {cfg : Config} {profile : Profile} (direct : cfg.coordinator = .direct)
    (memory : profile.coordinator = .memory) (circuit : CircuitBreaker)
    (concurrency : List (Provider × ℕ)) {s : ServiceState}
    (h : Reaches (system cfg profile) (fun _ _ => True) (.empty (.initial circuit concurrency)) s) :
    Concludes (system cfg profile) Helps s := by
  obtain ⟨F, tasks⟩ := tasks_finite h
  refine concludes_of_progress (I := fun s => Reaches (system cfg profile) (fun _ _ => True)
    (.empty (.initial circuit concurrency)) s) (F := F) ?_ ?_ h tasks
  · intro s l s' reached _ productive
    cases productive with
    | reply _ moved => exact reached.tail trivial moved
    | wait _ _ moved => exact reached.tail trivial moved
  · intro s reached unfinished
    cases running : s.running with
    | some t =>
      obtain ⟨e, at_⟩ := running_at reached running
      exact goes_running memory running at_
    | none =>
      unfold State.Idle at unfinished
      push Not at unfinished
      obtain ⟨t, T, task, open_⟩ := unfinished
      cases code : T.code with
      | done a => simp [code, Coroutine.isDone] at open_
      | perform e k =>
        have at_ : s.At t e := ⟨T, task, by rw [code]; rfl⟩
        by_cases acquiring : ∃ key fingerprint, e = .coordinator (.acquire key fingerprint)
        · obtain ⟨key, fingerprint, rfl⟩ := acquiring
          exact goes_at_acquire direct memory reached running at_
        · apply goes_suspended direct memory reached running at_
          exact fun key fingerprint he => acquiring ⟨key, fingerprint, he⟩

open Scenario in
/-- A payment is at its provider, a second one waits for its slot, and a third one for its key. -/
theorem calls_conclude_waiting : ∃ s : ServiceState, s.running = none ∧
    s.At 0 (.provider (.finishPayment "stripe" 0)) ∧ s.At 1 (.semaphore (.acquire "stripe" 0)) ∧
    (s.world.process.idempotency.waiting 2).isSome ∧
    Concludes (system (service ["stripe"] 1) {}) Helps s := by
  let labels : List ServiceLabel :=
    create 0 0 (card "a") 1 ++ ask 0 0 ++ .enter 0 .go :: start 0 ++
    create 1 0 (card "b") 1 ++ ask 1 0 ++
    [.enter 1 .go, .call 2 (.create (card "a")), .enter 2 .go]
  have h : ∃ s ∈ run (system (service ["stripe"] 1) {}) labels
      (.empty (.initial fragile [("stripe", 1)])),
      s.running = none ∧ s.At 0 (.provider (.finishPayment "stripe" 0)) ∧
      s.At 1 (.semaphore (.acquire "stripe" 0)) ∧
      (s.world.process.idempotency.waiting 2).isSome := by
    decide +kernel
  obtain ⟨s, moved, idle, first, second, third⟩ := h
  exact ⟨s, idle, first, second, third, calls_conclude rfl rfl fragile [("stripe", 1)]
    (run_reaches _ (throughout_of_forall _ (fun _ _ _ => trivial) _) moved)⟩

end PySwitch.Conclusion
