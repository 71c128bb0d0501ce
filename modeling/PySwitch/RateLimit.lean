import Mathlib.Algebra.Order.Floor.Ring
import Mathlib.Data.Rat.Floor
import PySwitch.TokenBucket

namespace PySwitch

open Serial TokenBucket

structure RateLimitDecision where
  allowed : Bool
  limit : ℤ
  remaining : ℤ
  retryAfterSeconds : ℤ := 0
  deriving DecidableEq, Repr

structure RateLimitUnavailable where
  code : String := "INTERNAL_ERROR"
  message : String := "Redis rate limiting is unavailable"
  deriving DecidableEq, Repr

/-- A call of `consume` with the reading that the clock gives it. -/
structure Consume (K : Type) where
  merchantId : String
  now : K
  deriving DecidableEq

/-- The settings of the limiter. The buckets it keeps are passed along; the lock makes one
call end before the next one reads the clock. -/
structure InMemoryTokenBucketLimiter (K : Type) [One K] where
  capacity : ℤ := 60
  refillPerSecond : K := 1

/-- The arguments of the script; the key of a merchant carries a digest. -/
structure RedisTokenBucketLimiter (K : Type) [One K] where
  sha256 : String → String
  capacity : ℤ := 60
  refillPerSecond : K := 1

/-- The fields of a key in Redis, all absent when the key is. -/
structure RateHash (K : Type) where
  tokens : Option K := none
  updated : Option K := none
  expiresAt : Option K := none

abbrev MemoryBuckets (K : Type) : Type := String → Option (Bucket K)

abbrev RedisBuckets (K : Type) : Type := String → RateHash K

variable {K : Type} [Field K] [LinearOrder K] [FloorRing K]

namespace InMemoryTokenBucketLimiter

variable (l : InMemoryTokenBucketLimiter K)

omit [FloorRing K] in
def make (capacity : ℤ) (refillPerSecond : K) : Except String (InMemoryTokenBucketLimiter K) :=
  if capacity < 1 ∨ refillPerSecond ≤ 0 then
    .error "Token bucket capacity and refill must be positive"
  else .ok ⟨capacity, refillPerSecond⟩

def consume : Handler (MemoryBuckets K) (Consume K) RateLimitDecision := fun buckets call =>
  let bucket := (buckets call.merchantId).getD ⟨l.capacity, call.now⟩
  let tokens := min (l.capacity : K)
    (bucket.tokens + max 0 (call.now - bucket.updated) * l.refillPerSecond)
  if 1 ≤ tokens then
    (⟨true, l.capacity, ⌊tokens - 1⌋, 0⟩,
      Function.update buckets call.merchantId (some ⟨tokens - 1, call.now⟩))
  else
    (⟨false, l.capacity, 0, max 1 ⌈(1 - tokens) / l.refillPerSecond⌉⟩,
      Function.update buckets call.merchantId (some ⟨tokens, call.now⟩))

end InMemoryTokenBucketLimiter

namespace RedisTokenBucketLimiter

variable (l : RedisTokenBucketLimiter K)

/-- The script, run at one reading of the server's clock on the fields of the key. -/
def script : Handler (RateHash K) K (List ℤ) := fun hash seconds =>
  let capacity : K := l.capacity
  let refill := l.refillPerSecond
  let tokens := hash.tokens.getD capacity
  let updated := hash.updated.getD seconds
  let tokens := min capacity (tokens + max 0 (seconds - updated) * refill)
  let (tokens, allowed, retry) :=
    if 1 ≤ tokens then (tokens - 1, 1, 0) else (tokens, 0, ⌈(1 - tokens) / refill⌉)
  ([allowed, ⌊tokens⌋, retry],
    ⟨some tokens, some seconds, some (seconds + ⌈capacity / refill * 2⌉)⟩)

/-- The fields of a key after a script that leaves this bucket. -/
def fields {K : Type} [Field K] [LinearOrder K] [FloorRing K] [IsStrictOrderedRing K] (q : Plan K)
    (b : Bucket K) : RateHash K :=
  ⟨some b.tokens, some b.updated, some (b.updated + ⌈q.capacity / q.refill * 2⌉)⟩

/-- A key whose time to live is over is gone. -/
def evict (hash : RateHash K) (seconds : K) : RateHash K :=
  match hash.expiresAt with
  | some time => if time ≤ seconds then {} else hash
  | none => hash

def redisKey (merchantId : String) : String := "pyswitch:rate:" ++ l.sha256 merchantId

def eval : Handler (RedisBuckets K) (Consume K) (List ℤ) := fun keys call =>
  let (values, hash) := l.script (evict (keys (l.redisKey call.merchantId)) call.now) call.now
  (values, Function.update keys (l.redisKey call.merchantId) hash)

/-- Whatever goes wrong on the way to Redis or in the reply is one and the same error. -/
def read : Except String (List ℤ) → Except RateLimitUnavailable RateLimitDecision
  | .ok (allowed :: remaining :: retry :: _) => .ok ⟨allowed ≠ 0, l.capacity, remaining, retry⟩
  | _ => .error {}

def consume : Handler (RedisBuckets K) (Consume K) (Except RateLimitUnavailable RateLimitDecision) :=
  fun keys call => (l.read (.ok (l.eval keys call).1), (l.eval keys call).2)

end RedisTokenBucketLimiter

end PySwitch
