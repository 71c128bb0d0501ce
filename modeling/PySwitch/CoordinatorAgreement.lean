import PySwitch.Async.Alone
import PySwitch.Machine

namespace PySwitch.Agreement

open Async Program

/-- What one call tells its caller. Errors are told apart by their class only. -/
inductive Verdict where
  | wait
  | decided (decision : IdempotencyDecision)
  | done
  | unavailable
  | raised (error : Exn)
  deriving DecidableEq

def Verdict.of {α : Type} (f : α → Verdict) : Option (Except Exn α × Locals) → Verdict
  | none => .wait
  | some (.ok a, _) => f a
  | some (.error (.idempotencyUnavailable _), _) => .unavailable
  | some (.error x, _) => .raised x

/-- One call at a coordinator, with nobody else around. -/
def ask (c : Coordinator) (answer : (e : Effect) → World → Answer e.Reply World) (w : World) :
    CoordinatorEffect → Verdict × World
  | .acquire key fingerprint =>
    let p := alone answer (c.acquire key fingerprint) {} w
    (Verdict.of .decided p.1, p.2)
  | .complete key fingerprint paymentId =>
    let p := alone answer (c.complete key fingerprint paymentId) {} w
    (Verdict.of (fun _ => .done) p.1, p.2)
  | .abort key fingerprint =>
    let p := alone answer (c.abort key fingerprint) {} w
    (Verdict.of (fun _ => .done) p.1, p.2)

def memory (t : Tid) : World → CoordinatorEffect → Verdict × World :=
  ask .direct fun e w => Effect.enter {} t e .go w

/-- A command reaches the server and is answered there. -/
def server (t : Tid) (e : Effect) (w : World) : Answer e.Reply World := Effect.resume {} t e .go w

def redis (sha256 : List Char → String) (ttl : ℕ) (t : Tid) :
    World → CoordinatorEffect → Verdict × World :=
  ask (.redis sha256 ttl) (server t)

/-- The answers to calls that are made one after the other. -/
def answers (f : Tid → World → CoordinatorEffect → Verdict × World) :
    List (Tid × CoordinatorEffect) → World → List Verdict
  | [], _ => []
  | (t, e) :: calls, w => (f t w e).1 :: answers f calls (f t w e).2

def key : CoordinatorEffect → RecordKey
  | .acquire key _ => key
  | .complete key _ _ => key
  | .abort key _ => key

/-- Where the calls made so far have left a key. A completed key is withdrawn by an abort with
its own fingerprint. -/
inductive Slot where
  | vacant
  | claimed (fingerprint : String)
  | completed (fingerprint : String) (paymentId : Uuid)
  | withdrawn (fingerprint : String) (paymentId : Uuid)

namespace Slot

def next : Slot → CoordinatorEffect → Slot
  | .vacant, .acquire _ fingerprint => .claimed fingerprint
  | .claimed _, .complete _ fingerprint paymentId => .completed fingerprint paymentId
  | .completed _ _, .complete _ fingerprint paymentId => .completed fingerprint paymentId
  | .withdrawn _ _, .complete _ fingerprint paymentId => .completed fingerprint paymentId
  | .claimed f, .abort _ fingerprint => if f = fingerprint then .vacant else .claimed f
  | .completed f id, .abort _ fingerprint =>
    if f = fingerprint then .withdrawn f id else .completed f id
  | slot, _ => slot

/-- A claim is completed with its own fingerprint, and a withdrawn key is not acquired. -/
def Orderly : Slot → CoordinatorEffect → Prop
  | .vacant, .complete _ _ _ => False
  | .claimed f, .complete _ fingerprint _ => f = fingerprint
  | .completed f _, .complete _ fingerprint _ => f = fingerprint
  | .withdrawn f _, .complete _ fingerprint _ => f = fingerprint
  | .withdrawn _ _, .acquire _ _ => False
  | _, _ => True

/-- What both coordinators answer to a call in order. -/
def verdict : Slot → CoordinatorEffect → Verdict
  | .vacant, .acquire _ _ => .decided ⟨.claimed, none⟩
  | .claimed f, .acquire _ fingerprint =>
    if f = fingerprint then .wait else .decided ⟨.conflict, none⟩
  | .completed f id, .acquire _ fingerprint =>
    if f = fingerprint then .decided ⟨.completed, some id⟩ else .decided ⟨.conflict, none⟩
  | _, _ => .done

/-- What the coordinator of one process remembers of a key. -/
def record : Slot → Option IdempotencyRecord
  | .vacant => none
  | .claimed f => some ⟨f, none, false⟩
  | .completed f id => some ⟨f, some id, true⟩
  | .withdrawn f id => some ⟨f, some id, true⟩

/-- The fields of the hash of a key on the server. -/
def hash : Slot → Option (ClaimStatus × String × Option Uuid)
  | .claimed f => some (.processing, f, none)
  | .completed f id => some (.completed, f, some id)
  | _ => none

end Slot

/-- Every call is in order where the ones before it have left its key. -/
def Orderly : (RecordKey → Slot) → List (Tid × CoordinatorEffect) → Prop
  | _, [] => True
  | slots, (_, e) :: calls => (slots (key e)).Orderly e ∧
      Orderly (Function.update slots (key e) ((slots (key e)).next e)) calls

section Memory

/-- A record that is not completed has an event for those who wait. -/
structure Remembers (c : MemoryIdempotencyCoordinator) (slots : RecordKey → Slot) : Prop where
  records : ∀ k, c.records k = (slots k).record
  events : ∀ k, slots k ≠ .vacant → ∃ event, c.events k = some event

variable {t : Tid} {w : World} {slots : RecordKey → Slot} {k : RecordKey} {fingerprint : String}
  {paymentId : Uuid} {c : MemoryIdempotencyCoordinator}

theorem memory_acquire : memory t w (.acquire k fingerprint) =
    match w.process.idempotency.acquire t k fingerprint with
    | .reply r c => (Verdict.of .decided (some (r, {})), Effect.setIdempotency w c)
    | .wait c => (.wait, Effect.setIdempotency w c)
    | .refuse => (.wait, w) := by
  simp only [memory, ask, Coordinator.direct, perform, alone_await, alone_effect, Effect.enter,
    MemoryIdempotencyCoordinator.enter]
  cases w.process.idempotency.acquire t k fingerprint <;> rfl

theorem memory_complete : memory t w (.complete k fingerprint paymentId) =
    (Verdict.of (fun _ => .done)
      (some ((w.process.idempotency.complete k fingerprint paymentId).1, {})),
      Effect.setIdempotency w (w.process.idempotency.complete k fingerprint paymentId).2) := by
  simp only [memory, ask, Coordinator.direct, perform, alone_await, alone_effect, Effect.enter,
    MemoryIdempotencyCoordinator.enter, Answer.lift, andThen]

theorem memory_abort : memory t w (.abort k fingerprint) =
    (.done, Effect.setIdempotency w (w.process.idempotency.abort k fingerprint)) := rfl

theorem Remembers.same (h : Remembers c slots) {c' : MemoryIdempotencyCoordinator} {s : Slot}
    (records : c'.records = c.records) (events : c'.events = c.events) (hs : slots k = s) :
    Remembers c' (Function.update slots k s) := by
  rw [← hs, Function.update_eq_self]
  exact ⟨fun k => records ▸ h.records k, fun k hk => events ▸ h.events k hk⟩

theorem Remembers.put (h : Remembers c slots) {c' : MemoryIdempotencyCoordinator} {s : Slot}
    (records : c'.records = Function.update c.records k s.record)
    (event : s ≠ .vacant → ∃ event, c'.events k = some event)
    (events : ∀ k', k' ≠ k → c'.events k' = c.events k') :
    Remembers c' (Function.update slots k s) where
  records := fun k' => by
    rw [records]
    by_cases hk : k' = k
    · subst k'
      rw [Function.update_self, Function.update_self]
    · rw [Function.update_of_ne hk, Function.update_of_ne hk]
      exact h.records k'
  events := fun k' hs => by
    by_cases hk : k' = k
    · subst k'
      rw [Function.update_self] at hs
      exact event hs
    · rw [Function.update_of_ne hk] at hs
      rw [events k' hk]
      exact h.events k' hs

theorem acquire_step (h : Remembers w.process.idempotency slots)
    (orderly : (slots k).Orderly (.acquire k fingerprint)) :
    (memory t w (.acquire k fingerprint)).1 = (slots k).verdict (.acquire k fingerprint) ∧
      Remembers (memory t w (.acquire k fingerprint)).2.process.idempotency
        (Function.update slots k ((slots k).next (.acquire k fingerprint))) := by
  have record := h.records k
  rw [memory_acquire]
  cases hs : slots k with
  | vacant =>
    rw [hs] at record
    simp only [MemoryIdempotencyCoordinator.acquire, record, Slot.record]
    refine ⟨rfl, h.put rfl (fun _ => ⟨_, Function.update_self ..⟩) fun k' hk => ?_⟩
    exact Function.update_of_ne hk ..
  | claimed f =>
    rw [hs] at record
    obtain ⟨event, he⟩ := h.events k (by rw [hs]; exact Slot.noConfusion)
    simp only [MemoryIdempotencyCoordinator.acquire, record, Slot.record]
    by_cases hf : f = fingerprint
    · simp only [hf, ne_eq, not_true_eq_false, if_false, Bool.false_eq_true, he, Slot.verdict,
        if_true]
      exact ⟨trivial, h.same rfl rfl (hf ▸ hs)⟩
    · simp only [hf, ne_eq, not_false_eq_true, if_true, Slot.verdict, if_false]
      exact ⟨rfl, h.same rfl rfl hs⟩
  | completed f id =>
    rw [hs] at record
    simp only [MemoryIdempotencyCoordinator.acquire, record, Slot.record]
    by_cases hf : f = fingerprint
    · simp only [hf, ne_eq, not_true_eq_false, if_false, if_true, Slot.verdict]
      exact ⟨rfl, h.same rfl rfl (hf ▸ hs)⟩
    · simp only [hf, ne_eq, not_false_eq_true, if_true, Slot.verdict, if_false]
      exact ⟨rfl, h.same rfl rfl hs⟩
  | withdrawn f id =>
    rw [hs] at orderly
    exact orderly.elim

theorem completed_step (h : Remembers w.process.idempotency slots) {record : IdempotencyRecord}
    (found : (slots k).record = some record) (same : record.fingerprint = fingerprint) :
    (memory t w (.complete k fingerprint paymentId)).1 = .done ∧
      Remembers (memory t w (.complete k fingerprint paymentId)).2.process.idempotency
        (Function.update slots k (.completed fingerprint paymentId)) := by
  obtain ⟨event, he⟩ := h.events k (by rintro hs; rw [hs] at found; cases found)
  rw [memory_complete]
  simp only [MemoryIdempotencyCoordinator.complete, h.records k, found, same, ne_eq,
    not_true_eq_false, if_false]
  refine ⟨rfl, h.put ?_ (fun _ => ⟨event, ?_⟩) fun k' _ => ?_⟩
  · exact (MemoryIdempotencyCoordinator.setEvent_records _ _).1
  · exact (congrFun (MemoryIdempotencyCoordinator.setEvent_records _ _).2 k).trans he
  · exact congrFun (MemoryIdempotencyCoordinator.setEvent_records _ _).2 k'

theorem complete_step (h : Remembers w.process.idempotency slots)
    (orderly : (slots k).Orderly (.complete k fingerprint paymentId)) :
    (memory t w (.complete k fingerprint paymentId)).1 =
        (slots k).verdict (.complete k fingerprint paymentId) ∧
      Remembers (memory t w (.complete k fingerprint paymentId)).2.process.idempotency
        (Function.update slots k ((slots k).next (.complete k fingerprint paymentId))) := by
  cases hs : slots k with
  | vacant =>
    rw [hs] at orderly
    exact orderly.elim
  | claimed f =>
    rw [hs] at orderly
    exact completed_step h (show _ = some ⟨f, none, false⟩ by rw [hs]; rfl) orderly
  | completed f id =>
    rw [hs] at orderly
    exact completed_step h (show _ = some ⟨f, some id, true⟩ by rw [hs]; rfl) orderly
  | withdrawn f id =>
    rw [hs] at orderly
    exact completed_step h (show _ = some ⟨f, some id, true⟩ by rw [hs]; rfl) orderly

theorem abort_step (h : Remembers w.process.idempotency slots) :
    (memory t w (.abort k fingerprint)).1 = (slots k).verdict (.abort k fingerprint) ∧
      Remembers (memory t w (.abort k fingerprint)).2.process.idempotency
        (Function.update slots k ((slots k).next (.abort k fingerprint))) := by
  have record := h.records k
  rw [memory_abort]
  cases hs : slots k with
  | vacant =>
    rw [hs] at record
    simp only [MemoryIdempotencyCoordinator.abort, record, Slot.record]
    exact ⟨rfl, h.same rfl rfl hs⟩
  | claimed f =>
    rw [hs] at record
    simp only [MemoryIdempotencyCoordinator.abort, record, Slot.record, Slot.next]
    by_cases hf : f = fingerprint
    · simp only [hf, and_self, if_true]
      refine ⟨rfl, h.put ?_ (fun hv => absurd rfl hv) fun k' _ => ?_⟩
      · exact (MemoryIdempotencyCoordinator.setEvent_records _ _).1
      · exact congrFun (MemoryIdempotencyCoordinator.setEvent_records _ _).2 k'
    · simp only [hf, false_and, if_false]
      exact ⟨rfl, h.same rfl rfl hs⟩
  | completed f id =>
    rw [hs] at record
    simp only [MemoryIdempotencyCoordinator.abort, record, Slot.record, Slot.next,
      Bool.true_eq_false, and_false, if_false]
    refine ⟨rfl, ?_⟩
    split
    · have same := Function.update_eq_self k w.process.idempotency.records
      rw [record] at same
      exact h.put same.symm (fun _ => h.events k (by rw [hs]; exact Slot.noConfusion))
        fun _ _ => rfl
    · exact h.same rfl rfl hs
  | withdrawn f id =>
    rw [hs] at record
    simp only [MemoryIdempotencyCoordinator.abort, record, Slot.record, Bool.true_eq_false,
      and_false, if_false]
    exact ⟨rfl, h.same rfl rfl hs⟩

theorem memory_step (h : Remembers w.process.idempotency slots) {e : CoordinatorEffect}
    (orderly : (slots (key e)).Orderly e) :
    (memory t w e).1 = (slots (key e)).verdict e ∧
      Remembers (memory t w e).2.process.idempotency
        (Function.update slots (key e) ((slots (key e)).next e)) := by
  cases e with
  | acquire k fingerprint => exact acquire_step h orderly
  | complete k fingerprint paymentId => exact complete_step h orderly
  | abort k fingerprint => exact abort_step h

/-- A call that is not in order is refused, or decided by a completed record. -/
theorem memory_disorderly (h : Remembers w.process.idempotency slots) {e : CoordinatorEffect}
    (disorderly : ¬ (slots (key e)).Orderly e) : (memory t w e).1 = .unavailable ∨
      ∃ d, (memory t w e).1 = .decided d ∧ d.status ≠ .claimed := by
  have record := h.records (key e)
  cases e with
  | acquire k fingerprint =>
    cases hs : slots (key (.acquire k fingerprint)) with
    | withdrawn f id =>
      rw [hs] at record
      rw [memory_acquire]
      replace record : w.process.idempotency.records k = some ⟨f, some id, true⟩ := record
      simp only [MemoryIdempotencyCoordinator.acquire, record]
      by_cases hf : f = fingerprint
      · simp only [hf, ne_eq, not_true_eq_false, if_false, if_true]
        exact .inr ⟨_, rfl, IdempotencyStatus.noConfusion⟩
      · simp only [hf, ne_eq, not_false_eq_true, if_true]
        exact .inr ⟨_, rfl, IdempotencyStatus.noConfusion⟩
    | _ =>
      rw [hs] at disorderly
      exact absurd trivial disorderly
  | complete k fingerprint paymentId =>
    left
    rw [memory_complete]
    replace record : w.process.idempotency.records k = (slots k).record := record
    cases hs : slots k with
    | vacant =>
      rw [hs] at record
      simp only [MemoryIdempotencyCoordinator.complete, record, Slot.record, Verdict.of]
    | _ =>
      replace disorderly : ¬ (slots k).Orderly _ := disorderly
      rw [hs] at disorderly record
      simp only [Slot.Orderly] at disorderly
      simp only [MemoryIdempotencyCoordinator.complete, record, Slot.record, ne_eq, disorderly,
        not_false_eq_true, if_true, Verdict.of]
  | abort k fingerprint =>
    refine absurd ?_ disorderly
    cases slots (key (.abort k fingerprint)) <;> trivial

end Memory

section Redis

variable {sha256 : List Char → String} {ttl : ℕ} {t : Tid} {w : World} {keys : Set RecordKey}
  {slots : RecordKey → Slot} {k : RecordKey} {fingerprint : String} {paymentId : Uuid}

def fields (h : RedisHash) : ClaimStatus × String × Option Uuid :=
  (h.status, h.fingerprint, h.paymentId)

/-- The server has the hashes of the keys, and none of them has expired. -/
def Serves (sha256 : List Char → String) (r : Redis) (keys : Set RecordKey)
    (slots : RecordKey → Slot) : Prop :=
  ∀ k ∈ keys, (r.lookup (redisKey sha256 k)).map fields = (slots k).hash

theorem server_redis (e : RedisEffect) :
    server t (.redis e) w = (Redis.resume e .go w.shared.redis).lift (Effect.setRedis w) := rfl

theorem alone_guarded {α : Type} {m : Service α} {s s' : Locals} {a : α} {w' : World}
    (h : alone (server t) m s w = (some (.ok a, s'), w')) :
    alone (server t) (Coordinator.guarded m) s w = (some (.ok a, s'), w') := by
  simp only [Coordinator.guarded, alone_bind, alone_attempt, h, Option.map_some, andThen,
    alone_pure]

theorem redis_claim_reply {d : IdempotencyDecision} {r : Redis}
    (h : w.shared.redis.claimScript (redisKey sha256 k) fingerprint ttl = .reply (.ok d) r) :
    redis sha256 ttl t w (.acquire k fingerprint) = (.decided d, Effect.setRedis w r) := by
  have claimed : alone (server t) ((Coordinator.redis sha256 ttl).acquire k fingerprint) {} w =
      (some (.ok d, {}), Effect.setRedis w r) := by
    apply alone_guarded
    simp only [alone_await, perform, alone_effect, server_redis, Redis.resume, h, Answer.lift,
      andThen]
  simp only [redis, ask, claimed, Verdict.of]

theorem redis_claim_wait {r : Redis}
    (h : w.shared.redis.claimScript (redisKey sha256 k) fingerprint ttl = .wait r) :
    redis sha256 ttl t w (.acquire k fingerprint) = (.wait, Effect.setRedis w r) := by
  simp only [redis, ask, Coordinator.redis, Coordinator.guarded, alone_bind, alone_attempt,
    alone_await, perform, alone_effect, server_redis, Redis.resume, h, Answer.lift, andThen,
    Option.map_none, Verdict.of]

theorem redis_complete : redis sha256 ttl t w (.complete k fingerprint paymentId) =
    (.done, Effect.setRedis w ((w.shared.redis.hset (redisKey sha256 k) fingerprint
      paymentId).expire (redisKey sha256 k) ttl)) := rfl

theorem redis_abort : redis sha256 ttl t w (.abort k fingerprint) = (.done,
    if (w.shared.redis.lookup (redisKey sha256 k)).map RedisHash.fingerprint = some fingerprint then
      Effect.setRedis w (w.shared.redis.write (redisKey sha256 k) none)
    else w) := by
  have aborted : alone (server t) ((Coordinator.redis sha256 ttl).abort k fingerprint) {} w =
      (some (.ok (), {}), if (w.shared.redis.lookup (redisKey sha256 k)).map
          RedisHash.fingerprint = some fingerprint then
        Effect.setRedis w (w.shared.redis.write (redisKey sha256 k) none) else w) := by
    apply alone_guarded
    simp only [alone_bind, alone_await, alone_onlyIf, perform, alone_effect, server_redis,
      Redis.resume, Answer.lift, andThen]
    split <;> rfl
  simp only [redis, ask, aborted, Verdict.of]

theorem lookup_other (r : Redis) {a b : String} (h : Option RedisHash) (hb : b ≠ a) :
    (r.write a h).lookup b = r.lookup b := by
  simp only [Redis.lookup, Redis.write, Function.update_of_ne hb]
  rfl

theorem lookup_deleted (r : Redis) (a : String) : (r.write a none).lookup a = none := by
  simp only [Redis.lookup, Redis.write, Function.update_self]

theorem lookup_written (r : Redis) (a : String) {h : RedisHash} (live : r.expired h = false) :
    (r.write a (some h)).lookup a = some h := by
  have found : (r.write a (some h)).hashes a = some h := Function.update_self ..
  have live' : (r.write a (some h)).expired h = false := live
  simp only [Redis.lookup, found, live', Bool.false_eq_true, if_false]

theorem live_of_ttl (r : Redis) (positive : 0 < ttl) {h : RedisHash}
    (expires : h.expiresAt = some (r.now + ttl)) : r.expired h = false := by
  have later : r.now < r.now + (ttl : Seconds) :=
    lt_add_of_pos_right _ (by exact_mod_cast positive)
  simp only [Redis.expired, expires, decide_eq_false_iff_not, not_le, later]

/-- A hash that is found has not expired, and its time to live survives a write of its fields. -/
theorem lookup_hset (r : Redis) (a : String) :
    (r.hset a fingerprint paymentId).lookup a = some ⟨.completed, fingerprint, some paymentId,
      (r.lookup a).bind RedisHash.expiresAt⟩ := by
  have live : r.expired ⟨.completed, fingerprint, some paymentId,
      (r.lookup a).bind RedisHash.expiresAt⟩ = false := by
    cases found : r.lookup a with
    | none => rfl
    | some hash =>
      unfold Redis.lookup at found
      split at found
      · split at found
        · cases found
        · rename_i live
          cases found
          simpa [Redis.expired] using live
      · cases found
  exact lookup_written r a live

theorem completed_lookup (positive : 0 < ttl) (r : Redis) (a : String) :
    (((r.hset a fingerprint paymentId).expire a ttl).lookup a).map fields =
      some (.completed, fingerprint, some paymentId) := by
  have written := lookup_written (r.hset a fingerprint paymentId) a
    (h := ⟨.completed, fingerprint, some paymentId, some (r.now + ttl)⟩)
    (live_of_ttl _ positive rfl)
  simp only [Redis.expire, lookup_hset]
  exact congrArg (Option.map fields) written

theorem lookup_completed_other (r : Redis) (a b : String) (hb : b ≠ a) :
    ((r.hset a fingerprint paymentId).expire a ttl).lookup b = r.lookup b := by
  unfold Redis.expire
  split
  · rw [lookup_other _ _ hb]
    exact lookup_other _ _ hb
  · exact lookup_other _ _ hb

theorem Serves.put (inj : Set.InjOn (redisKey sha256) keys) {r r' : Redis}
    (h : Serves sha256 r keys slots) (hk : k ∈ keys) {s : Slot}
    (here : (r'.lookup (redisKey sha256 k)).map fields = s.hash)
    (others : ∀ b, b ≠ redisKey sha256 k → r'.lookup b = r.lookup b) :
    Serves sha256 r' keys (Function.update slots k s) := by
  intro k' hk'
  by_cases hkk : k' = k
  · subst k'
    rw [Function.update_self]
    exact here
  · rw [Function.update_of_ne hkk, others _ fun he => hkk (inj hk' hk he)]
    exact h k' hk'

theorem Serves.same {r : Redis} (h : Serves sha256 r keys slots) {s : Slot} (hs : slots k = s) :
    Serves sha256 r keys (Function.update slots k s) := by
  rw [← hs, Function.update_eq_self]
  exact h

theorem Serves.lookup {r : Redis} (h : Serves sha256 r keys slots) (hk : k ∈ keys)
    {status : ClaimStatus} {f : String} {id : Option Uuid}
    (hs : (slots k).hash = some (status, f, id)) : ∃ hash,
      r.lookup (redisKey sha256 k) = some hash ∧ hash.status = status ∧ hash.fingerprint = f ∧
        hash.paymentId = id := by
  obtain ⟨hash, found, he⟩ := Option.map_eq_some_iff.mp ((h k hk).trans hs)
  cases he
  exact ⟨hash, found, rfl, rfl, rfl⟩

theorem Serves.missing {r : Redis} (h : Serves sha256 r keys slots) (hk : k ∈ keys)
    (hs : (slots k).hash = none) : r.lookup (redisKey sha256 k) = none :=
  Option.map_eq_none_iff.mp ((h k hk).trans hs)

theorem claimed_step (positive : 0 < ttl) (inj : Set.InjOn (redisKey sha256) keys)
    (h : Serves sha256 w.shared.redis keys slots) (hk : k ∈ keys) (hs : (slots k).hash = none) :
    (redis sha256 ttl t w (.acquire k fingerprint)).1 = .decided ⟨.claimed, none⟩ ∧
      Serves sha256 (redis sha256 ttl t w (.acquire k fingerprint)).2.shared.redis keys
        (Function.update slots k (.claimed fingerprint)) := by
  have script : w.shared.redis.claimScript (redisKey sha256 k) fingerprint ttl =
      .reply (.ok ⟨.claimed, none⟩) (w.shared.redis.write (redisKey sha256 k)
        (some ⟨.processing, fingerprint, none, some (w.shared.redis.now + ttl)⟩)) := by
    simp only [Redis.claimScript, h.missing hk hs]
  rw [redis_claim_reply script]
  refine ⟨rfl, h.put inj hk ?_ fun b hb => lookup_other _ _ hb⟩
  have written := lookup_written w.shared.redis (redisKey sha256 k)
    (h := ⟨.processing, fingerprint, none, some (w.shared.redis.now + ttl)⟩)
    (live_of_ttl _ positive rfl)
  exact congrArg (Option.map fields) written

theorem redis_acquire_step (positive : 0 < ttl) (inj : Set.InjOn (redisKey sha256) keys)
    (h : Serves sha256 w.shared.redis keys slots) (hk : k ∈ keys)
    (orderly : (slots k).Orderly (.acquire k fingerprint)) :
    (redis sha256 ttl t w (.acquire k fingerprint)).1 =
        (slots k).verdict (.acquire k fingerprint) ∧
      Serves sha256 (redis sha256 ttl t w (.acquire k fingerprint)).2.shared.redis keys
        (Function.update slots k ((slots k).next (.acquire k fingerprint))) := by
  cases hs : slots k with
  | vacant => exact claimed_step positive inj h hk (by rw [hs]; rfl)
  | claimed f =>
    obtain ⟨hash, found, status, same, -⟩ :=
      h.lookup hk (show _ = some (.processing, f, none) by rw [hs]; rfl)
    by_cases hf : f = fingerprint
    · rw [redis_claim_wait (by simp [Redis.claimScript, found, same, hf, status]; rfl)]
      exact ⟨by simp only [Slot.verdict, if_pos hf], h.same hs⟩
    · rw [redis_claim_reply (by simp [Redis.claimScript, found, same, hf]; exact ⟨rfl, rfl⟩)]
      exact ⟨by simp only [Slot.verdict, if_neg hf], h.same hs⟩
  | completed f id =>
    obtain ⟨hash, found, status, same, paymentId⟩ :=
      h.lookup hk (show _ = some (.completed, f, some id) by rw [hs]; rfl)
    by_cases hf : f = fingerprint
    · rw [redis_claim_reply (by
        simp [Redis.claimScript, found, same, hf, status, paymentId]; exact ⟨rfl, rfl⟩)]
      exact ⟨by simp only [Slot.verdict, if_pos hf], h.same hs⟩
    · rw [redis_claim_reply (by simp [Redis.claimScript, found, same, hf]; exact ⟨rfl, rfl⟩)]
      exact ⟨by simp only [Slot.verdict, if_neg hf], h.same hs⟩
  | withdrawn f id =>
    rw [hs] at orderly
    exact orderly.elim

theorem redis_complete_step (positive : 0 < ttl) (inj : Set.InjOn (redisKey sha256) keys)
    (h : Serves sha256 w.shared.redis keys slots) (hk : k ∈ keys)
    (orderly : (slots k).Orderly (.complete k fingerprint paymentId)) :
    (redis sha256 ttl t w (.complete k fingerprint paymentId)).1 =
        (slots k).verdict (.complete k fingerprint paymentId) ∧
      Serves sha256 (redis sha256 ttl t w (.complete k fingerprint paymentId)).2.shared.redis keys
        (Function.update slots k ((slots k).next (.complete k fingerprint paymentId))) := by
  rw [redis_complete]
  have put := h.put inj hk (s := .completed fingerprint paymentId)
    (completed_lookup positive w.shared.redis _) (lookup_completed_other _ _)
  cases hs : slots k with
  | vacant =>
    rw [hs] at orderly
    exact orderly.elim
  | _ => exact ⟨rfl, put⟩

theorem redis_abort_step (inj : Set.InjOn (redisKey sha256) keys)
    (h : Serves sha256 w.shared.redis keys slots) (hk : k ∈ keys) :
    (redis sha256 ttl t w (.abort k fingerprint)).1 = (slots k).verdict (.abort k fingerprint) ∧
      Serves sha256 (redis sha256 ttl t w (.abort k fingerprint)).2.shared.redis keys
        (Function.update slots k ((slots k).next (.abort k fingerprint))) := by
  have deleted {s : Slot} (hs : s.hash = none) : Serves sha256
      (w.shared.redis.write (redisKey sha256 k) none) keys (Function.update slots k s) :=
    h.put inj hk (by rw [lookup_deleted, hs]; rfl) fun b hb => lookup_other _ _ hb
  rw [redis_abort]
  cases hs : slots k with
  | vacant =>
    simp only [h.missing hk (by rw [hs]; rfl), Option.map_none, reduceCtorEq, if_false]
    exact ⟨rfl, h.same hs⟩
  | claimed f =>
    obtain ⟨hash, found, -, same, -⟩ :=
      h.lookup hk (show _ = some (.processing, f, none) by rw [hs]; rfl)
    simp only [found, Option.map_some, same, Option.some.injEq, Slot.next]
    split
    · exact ⟨rfl, deleted rfl⟩
    · exact ⟨rfl, h.same hs⟩
  | completed f id =>
    obtain ⟨hash, found, -, same, -⟩ :=
      h.lookup hk (show _ = some (.completed, f, some id) by rw [hs]; rfl)
    simp only [found, Option.map_some, same, Option.some.injEq, Slot.next]
    split
    · exact ⟨rfl, deleted rfl⟩
    · exact ⟨rfl, h.same hs⟩
  | withdrawn f id =>
    simp only [h.missing hk (by rw [hs]; rfl), Option.map_none, reduceCtorEq, if_false]
    exact ⟨rfl, h.same hs⟩

theorem redis_step (positive : 0 < ttl) (inj : Set.InjOn (redisKey sha256) keys)
    (h : Serves sha256 w.shared.redis keys slots) {e : CoordinatorEffect} (hk : key e ∈ keys)
    (orderly : (slots (key e)).Orderly e) :
    (redis sha256 ttl t w e).1 = (slots (key e)).verdict e ∧
      Serves sha256 (redis sha256 ttl t w e).2.shared.redis keys
        (Function.update slots (key e) ((slots (key e)).next e)) := by
  cases e with
  | acquire k fingerprint => exact redis_acquire_step positive inj h hk orderly
  | complete k fingerprint paymentId => exact redis_complete_step positive inj h hk orderly
  | abort k fingerprint => exact redis_abort_step inj h hk

/-- A call that is not in order succeeds. -/
theorem redis_disorderly (positive : 0 < ttl) (inj : Set.InjOn (redisKey sha256) keys)
    (h : Serves sha256 w.shared.redis keys slots) {e : CoordinatorEffect} (hk : key e ∈ keys)
    (disorderly : ¬ (slots (key e)).Orderly e) :
    (redis sha256 ttl t w e).1 = .done ∨
      (redis sha256 ttl t w e).1 = .decided ⟨.claimed, none⟩ := by
  cases e with
  | acquire k fingerprint =>
    cases hs : slots k with
    | withdrawn f id => exact .inr (claimed_step positive inj h hk (show (slots k).hash = none by
        rw [hs]; rfl)).1
    | _ =>
      replace disorderly : ¬ (slots k).Orderly _ := disorderly
      rw [hs] at disorderly
      exact absurd trivial disorderly
  | complete k fingerprint paymentId => exact .inl (by rw [redis_complete])
  | abort k fingerprint =>
    refine absurd ?_ disorderly
    cases slots (key (.abort k fingerprint)) <;> trivial

end Redis

/-- While the calls are in order the two coordinators answer alike, and at the first one that is
not they differ. -/
theorem answers_agree_iff {sha256 : List Char → String} {ttl : ℕ} (positive : 0 < ttl)
    {calls : List (Tid × CoordinatorEffect)} {slots : RecordKey → Slot} {keys : Set RecordKey}
    (inj : Set.InjOn (redisKey sha256) keys) (named : ∀ c ∈ calls, key c.2 ∈ keys) {w v : World}
    (remembers : Remembers w.process.idempotency slots)
    (serves : Serves sha256 v.shared.redis keys slots) :
    answers memory calls w = answers (redis sha256 ttl) calls v ↔ Orderly slots calls := by
  induction calls generalizing slots w v with
  | nil => exact ⟨fun _ => trivial, fun _ => rfl⟩
  | cons c calls ih =>
    obtain ⟨t, e⟩ := c
    have hk : key e ∈ keys := named (t, e) (List.mem_cons_self ..)
    simp only [answers, Orderly, List.cons.injEq]
    by_cases orderly : (slots (key e)).Orderly e
    · obtain ⟨said, remembers'⟩ := memory_step (t := t) remembers orderly
      obtain ⟨said', serves'⟩ := redis_step (t := t) positive inj serves hk orderly
      rw [said, said']
      have rest := ih (fun c hc => named c (List.mem_cons_of_mem _ hc)) remembers' serves'
      exact and_congr (iff_of_true rfl orderly) rest
    · refine iff_of_false (fun h => ?_) fun h => orderly h.1
      have differ := h.1
      obtain he | ⟨d, he, hd⟩ := memory_disorderly (t := t) remembers orderly
      · obtain hr | hr := redis_disorderly (t := t) positive inj serves hk orderly
        · rw [he, hr] at differ
          cases differ
        · rw [he, hr] at differ
          cases differ
      · obtain hr | hr := redis_disorderly (t := t) positive inj serves hk orderly
        · rw [he, hr] at differ
          cases differ
        · rw [he, hr] at differ
          cases differ
          exact hd rfl

/-- The coordinators give the same answers to a sequence of calls exactly when the sequence
completes every claim with its own fingerprint, and does not acquire a key that was completed and
aborted afterwards until it has been completed again. -/
theorem coordinators_agree {sha256 : List Char → String} {ttl : ℕ} (positive : 0 < ttl)
    {calls : List (Tid × CoordinatorEffect)}
    (inj : Set.InjOn (redisKey sha256) {k | ∃ c ∈ calls, key c.2 = k}) (circuit : CircuitBreaker)
    (concurrency : List (Provider × ℕ)) :
    answers memory calls (.initial circuit concurrency) =
        answers (redis sha256 ttl) calls (.initial circuit concurrency) ↔
      Orderly (fun _ => .vacant) calls := by
  have records : (World.initial circuit concurrency).process.idempotency =
      MemoryIdempotencyCoordinator.empty :=
    Process.initial_eq (fun p => p.idempotency) (fun _ _ _ => rfl) circuit concurrency
  apply answers_agree_iff positive inj fun c hc => ⟨c, hc, rfl⟩
  · rw [records]
    exact ⟨fun _ => rfl, fun _ h => absurd rfl h⟩
  · exact fun _ _ => rfl

/-- Two callers share a key, and another one gives up a claim. -/
def sharedKey : List (Tid × CoordinatorEffect) :=
  [(0, .acquire ("m", "a") "f"), (1, .acquire ("m", "a") "f"), (2, .acquire ("m", "b") "g"),
    (0, .complete ("m", "a") "f" 7), (1, .acquire ("m", "a") "f"), (2, .abort ("m", "b") "g"),
    (2, .acquire ("m", "a") "g")]

theorem coordinators_agree_shared :
    answers memory sharedKey (.initial Scenario.fragile []) =
      answers (redis String.ofList 90) sharedKey (.initial Scenario.fragile []) := by
  have distinct : ∀ c ∈ sharedKey, ∀ d ∈ sharedKey,
      redisKey String.ofList (key c.2) = redisKey String.ofList (key d.2) → key c.2 = key d.2 := by
    decide +kernel
  have inj : Set.InjOn (redisKey String.ofList) {k | ∃ c ∈ sharedKey, key c.2 = k} := by
    rintro _ ⟨c, hc, rfl⟩ _ ⟨d, hd, rfl⟩ same
    exact distinct c hc d hd same
  have orderly : Orderly (fun _ => .vacant) sharedKey := by
    simp [sharedKey, Orderly, Slot.Orderly, Slot.next, key]
  exact (coordinators_agree (by decide) inj _ _).mpr orderly

/-- A payment is completed, its claim is aborted all the same, and the request comes again. -/
def abortedLate : List (Tid × CoordinatorEffect) :=
  [(0, .acquire ("m", "a") "f"), (0, .complete ("m", "a") "f" 7), (0, .abort ("m", "a") "f"),
    (1, .acquire ("m", "a") "f")]

theorem aborted_late_claimed_again :
    answers memory abortedLate (.initial Scenario.fragile []) =
        [.decided ⟨.claimed, none⟩, .done, .done, .decided ⟨.completed, some 7⟩] ∧
      answers (redis String.ofList 90) abortedLate (.initial Scenario.fragile []) =
        [.decided ⟨.claimed, none⟩, .done, .done, .decided ⟨.claimed, none⟩] := by
  decide +kernel

end PySwitch.Agreement
