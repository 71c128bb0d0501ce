import PySwitch.RateWindow

namespace PySwitch.RedisTokenBucketLimiter

open Serial TokenBucket

variable {K : Type} [Field K] [LinearOrder K] [FloorRing K] [IsStrictOrderedRing K]
  {r : RedisTokenBucketLimiter K} {l : InMemoryTokenBucketLimiter K} {q : Plan K}
  {hash : RateHash K} {b : Option (Bucket K)} {now : K}

/-- The bucket that the fields of a key stand for. -/
def held (q : Plan K) (hash : RateHash K) (now : K) : Bucket K :=
  ⟨hash.tokens.getD q.capacity, hash.updated.getD now⟩

/-- The reply of the script when the bucket holds that many tokens. -/
def values (r : RedisTokenBucketLimiter K) (tokens : K) : List ℤ :=
  if 1 ≤ tokens then [1, ⌊tokens - 1⌋, 0]
  else [0, ⌊tokens⌋, ⌈(1 - tokens) / r.refillPerSecond⌉]

structure Follows (r : RedisTokenBucketLimiter K) (q : Plan K) : Prop where
  capacity : (r.capacity : K) = q.capacity
  refill : r.refillPerSecond = q.refill

theorem script_eq (follows : r.Follows q) : r.script hash now =
    (r.values (q.refilled (held q hash now) now), fields q (q.draw (held q hash now) now).2) := by
  unfold script values fields Plan.draw Plan.refilled Plan.grow held
  rw [follows.capacity, follows.refill]
  dsimp only
  split <;> rfl

/-- Ceiling and floor leave what the limiter in memory cuts off by hand. -/
theorem read_values (refill : r.refillPerSecond = q.refill) (sameCapacity : l.capacity = r.capacity)
    (sameRefill : l.refillPerSecond = r.refillPerSecond) {tokens : K} (nonneg : 0 ≤ tokens) :
    r.read (.ok (r.values tokens)) = .ok (l.decision tokens) := by
  unfold values InMemoryTokenBucketLimiter.decision
  rw [sameCapacity, sameRefill]
  by_cases enough : 1 ≤ tokens
  · rw [if_pos enough, if_pos enough]
    rfl
  · rw [if_neg enough, if_neg enough]
    have short : tokens < 1 := not_le.mp enough
    have missing : 0 < (1 - tokens) / r.refillPerSecond := by
      rw [refill]
      exact div_pos (by linarith) q.refill_pos
    have none : ⌊tokens⌋ = 0 := Int.floor_eq_zero_iff.mpr ⟨nonneg, short⟩
    have waits : 1 ≤ ⌈(1 - tokens) / r.refillPerSecond⌉ := Int.one_le_ceil_iff.mpr missing
    rw [none, max_eq_right waits]
    rfl

/-- The key in Redis and the bucket in memory of one merchant, at the time of the last call. -/
def Mirrors (q : Plan K) (last : K) : Option (Bucket K) → RateHash K → Prop
  | none, hash => hash = {}
  | some b, hash => q.Within b ∧ b.updated ≤ last ∧ hash = fields q b

theorem mirrors_mono {later : K} (le : now ≤ later) (h : Mirrors q now b hash) :
    Mirrors q later b hash := by
  cases b with
  | none => exact h
  | some b => exact ⟨h.1, h.2.1.trans le, h.2.2⟩

theorem mirrors_within {last : K} (h : Mirrors q last b hash) :
    q.Within (b.getD (q.full now)) := by
  cases b with
  | none => exact full_within
  | some b => exact h.1

/-- A key that has expired would have been full again. -/
theorem refilled_evict {last : K} (h : Mirrors q last b hash) :
    q.refilled (held q (evict hash now) now) now = q.refilled (b.getD (q.full now)) now := by
  cases b with
  | none =>
    obtain rfl := h
    rfl
  | some b =>
    obtain ⟨within, -, rfl⟩ := h
    by_cases gone : b.updated + ⌈q.capacity / q.refill * 2⌉ ≤ now
    · have idle : q.capacity / q.refill ≤ now - b.updated := by
        have once := div_nonneg (zero_le_one.trans q.one_le_capacity) q.refill_pos.le
        have twice := Int.le_ceil (q.capacity / q.refill * 2)
        linarith
      have fresh : evict (fields q b) now = {} := if_pos gone
      rw [fresh, Option.getD_some, refilled_idle within idle]
      exact refilled_full
    · have kept : evict (fields q b) now = fields q b := if_neg gone
      rw [kept]
      rfl

theorem mirrors_call {last : K} (follows : r.Follows q) (sameCapacity : l.capacity = r.capacity)
    (sameRefill : l.refillPerSecond = r.refillPerSecond) (call : Consume K)
    (h : Mirrors q last b hash) :
    r.read (.ok (r.script (evict hash call.now) call.now).1) = .ok (l.serve q b call).1 ∧
      Mirrors q call.now (l.serve q b call).2 (r.script (evict hash call.now) call.now).2 := by
  have level : q.refilled (held q (evict hash call.now) call.now) call.now =
      q.refilled (b.getD (q.full call.now)) call.now := refilled_evict h
  have within : q.Within (b.getD (q.full call.now)) := mirrors_within h
  rw [script_eq follows, level, draw_of_refilled level]
  constructor
  · exact read_values follows.refill sameCapacity sameRefill (refilled_nonneg within)
  · exact ⟨draw_within within, draw_updated.le, rfl⟩

/-- The limiter in memory can always be reached. -/
def available (l : InMemoryTokenBucketLimiter K) :
    Handler (MemoryBuckets K) (Consume K) (Except RateLimitUnavailable RateLimitDecision) :=
  fun buckets call => (.ok (l.consume buckets call).1, (l.consume buckets call).2)

/-- Every merchant of the calls has the same bucket on both sides. -/
def Mirror (r : RedisTokenBucketLimiter K) (q : Plan K) (calls : List (Consume K)) (last : K)
    (keys : RedisBuckets K) (buckets : MemoryBuckets K) : Prop :=
  ∀ c ∈ calls, Mirrors q last (buckets c.merchantId) (keys (r.redisKey c.merchantId))

theorem mirror_call {last : K} (follows : r.Follows q) (memory : l.Follows q)
    (sameCapacity : l.capacity = r.capacity) (sameRefill : l.refillPerSecond = r.refillPerSecond)
    {calls : List (Consume K)} (distinct : ∀ a ∈ calls, ∀ b ∈ calls,
      r.redisKey a.merchantId = r.redisKey b.merchantId → a.merchantId = b.merchantId)
    {keys : RedisBuckets K} {buckets : MemoryBuckets K} {call : Consume K} (mem : call ∈ calls)
    (le : last ≤ call.now) (h : Mirror r q calls last keys buckets) :
    (r.consume keys call).1 = (available l buckets call).1 ∧
      Mirror r q calls call.now (r.consume keys call).2 (available l buckets call).2 := by
  have own := mirrors_call follows sameCapacity sameRefill call (h call mem)
  rw [available, InMemoryTokenBucketLimiter.consume_eq memory]
  apply And.intro own.1
  intro c hc
  by_cases same : c.merchantId = call.merchantId
  · rw [same]
    simpa [keyed, consume, eval] using own.2
  · have other : r.redisKey c.merchantId ≠ r.redisKey call.merchantId :=
      fun h => same (distinct c hc call mem h)
    simpa [keyed, consume, eval, same, other] using mirrors_mono le (h c hc)

/-- The two limiters decide alike as long as the digests of the merchants differ. -/
theorem limiters_agree {capacity : ℤ} {refillPerSecond : K}
    (made : InMemoryTokenBucketLimiter.make capacity refillPerSecond = .ok l)
    (sha256 : String → String) (calls : List (Consume K))
    (ordered : calls.Pairwise fun a b => a.now ≤ b.now)
    (distinct : ∀ a ∈ calls, ∀ b ∈ calls,
      sha256 a.merchantId = sha256 b.merchantId → a.merchantId = b.merchantId) :
    answers (RedisTokenBucketLimiter.mk sha256 capacity refillPerSecond).consume
        (fun _ => {}) calls =
      (answers l.consume (fun _ => none) calls).map (Prod.map id .ok) := by
  obtain ⟨q, memory, capacityEq, refillEq⟩ := InMemoryTokenBucketLimiter.plan_of_make made
  obtain ⟨-, -, rfl⟩ := InMemoryTokenBucketLimiter.make_eq_ok.mp made
  have follows : (RedisTokenBucketLimiter.mk sha256 capacity refillPerSecond).Follows q :=
    ⟨capacityEq, refillEq⟩
  cases calls with
  | nil => rfl
  | cons first calls =>
    have never : (answers (InMemoryTokenBucketLimiter.mk capacity refillPerSecond).consume
        (fun _ => none) (first :: calls)).map (Prod.map id .ok) =
        answers (available ⟨capacity, refillPerSecond⟩) (fun _ => none)
          ((first :: calls).map id) := answers_map fun _ _ => rfl
    have keysDiffer : ∀ a ∈ first :: calls, ∀ b ∈ first :: calls,
        (RedisTokenBucketLimiter.mk sha256 capacity refillPerSecond).redisKey a.merchantId =
          (RedisTokenBucketLimiter.mk sha256 capacity refillPerSecond).redisKey b.merchantId →
        a.merchantId = b.merchantId :=
      fun a ha b hb h => distinct a ha b hb (by simpa [redisKey] using h)
    have start : Mirror (RedisTokenBucketLimiter.mk sha256 capacity refillPerSecond) q
        (first :: calls) first.now (fun _ => {}) (fun _ => none) := fun _ _ => rfl
    have later : ∀ c ∈ first :: calls, first.now ≤ c.now := by
      intro c hc
      obtain rfl | hc := List.mem_cons.mp hc
      · rfl
      · exact (List.pairwise_cons.mp ordered).1 c hc
    rw [never, List.map_id]
    apply answers_eq (Mirror _ q (first :: calls)) _ start later ordered
    intro last keys buckets call mem le h
    exact mirror_call follows memory rfl rfl keysDiffer mem le h

theorem limiters_agree_past_expiry :
    let sha256 : String → String := fun merchantId =>
      if merchantId = "a" then "ca978112ca1bbdcafac231b39a23dc4da786eff8147c4e72b9807785afee48bb"
      else "3e23e8160039594a33894f6564e1b1348bbd7a0088d42c4acb73eeaed59c009d"
    let calls : List (Consume ℚ) := [⟨"a", 0⟩, ⟨"b", 0⟩, ⟨"a", 1 / 2⟩, ⟨"a", 3⟩]
    answers (RedisTokenBucketLimiter.mk sha256 1 1).consume (fun _ => {}) calls =
      (answers (InMemoryTokenBucketLimiter.mk 1 1).consume (fun _ => none) calls).map
        (Prod.map id .ok) :=
  limiters_agree (InMemoryTokenBucketLimiter.make_eq_ok.mpr (by norm_num)) _ _
    (by decide +kernel) (by decide +kernel)

end PySwitch.RedisTokenBucketLimiter
