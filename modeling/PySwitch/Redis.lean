import PySwitch.Input

namespace PySwitch

open Async

inductive ClaimStatus where
  | processing
  | completed
  deriving DecidableEq

structure RedisHash where
  status : ClaimStatus
  fingerprint : String
  paymentId : Option Uuid
  expiresAt : Option Seconds

/-- The commands of the Redis coordinator. `claim` is the loop that evaluates the claim
script, sleeps while the answer is `PROCESSING`, and evaluates it again. -/
inductive RedisEffect where
  | claim (redisKey fingerprint : String) (ttl : ℕ)
  | hset (redisKey fingerprint : String) (paymentId : Uuid)
  | expire (redisKey : String) (ttl : ℕ)
  | hget (redisKey : String)
  | delete (redisKey : String)
  deriving DecidableEq

@[reducible] def RedisEffect.Reply : RedisEffect → Type
  | .claim _ _ _ => Except Exn IdempotencyDecision
  | .hset _ _ _ => Except Exn Unit
  | .expire _ _ => Except Exn Unit
  | .hget _ => Except Exn (Option String)
  | .delete _ => Except Exn Unit

/-- The server and its clock. A hash is gone once its time to live has elapsed. -/
structure Redis where
  now : Seconds
  hashes : String → Option RedisHash

namespace Redis

def empty : Redis := ⟨0, fun _ => none⟩

def expired (r : Redis) (hash : RedisHash) : Bool :=
  match hash.expiresAt with
  | some time => decide (time ≤ r.now)
  | none => false

def lookup (r : Redis) (redisKey : String) : Option RedisHash :=
  match r.hashes redisKey with
  | some hash => if r.expired hash then none else some hash
  | none => none

def write (r : Redis) (redisKey : String) (hash : Option RedisHash) : Redis :=
  { r with hashes := Function.update r.hashes redisKey hash }

/-- The claim script runs atomically on the server. -/
def claimScript (r : Redis) (redisKey fingerprint : String) (ttl : ℕ) :
    Answer (Except Exn IdempotencyDecision) Redis :=
  match r.lookup redisKey with
  | none =>
    .reply (.ok ⟨.claimed, none⟩)
      (r.write redisKey (some ⟨.processing, fingerprint, none, some (r.now + ttl)⟩))
  | some hash =>
    if hash.fingerprint ≠ fingerprint then .reply (.ok ⟨.conflict, none⟩) r
    else match hash.status with
      | .completed => .reply (.ok ⟨.completed, hash.paymentId⟩) r
      | .processing => .wait r

/-- Writing the fields of a hash that has expired creates it anew, without a time to live. -/
def hset (r : Redis) (redisKey fingerprint : String) (paymentId : Uuid) : Redis :=
  r.write redisKey (some ⟨.completed, fingerprint, some paymentId,
    (r.lookup redisKey).bind RedisHash.expiresAt⟩)

def expire (r : Redis) (redisKey : String) (ttl : ℕ) : Redis :=
  match r.lookup redisKey with
  | some hash => r.write redisKey (some { hash with expiresAt := some (r.now + ttl) })
  | none => r

/-- Every command travels to the server first, so it suspends the task. -/
def enter (e : RedisEffect) : Input → Redis → Answer e.Reply Redis
  | .suspend, r => .wait r
  | _, _ => .refuse

def resume : (e : RedisEffect) → Input → Redis → Answer e.Reply Redis
  | .claim redisKey fingerprint ttl, .go, r => r.claimScript redisKey fingerprint ttl
  | .hset redisKey fingerprint paymentId, .go, r => .reply (.ok ()) (r.hset redisKey fingerprint paymentId)
  | .expire redisKey ttl, .go, r => .reply (.ok ()) (r.expire redisKey ttl)
  | .hget redisKey, .go, r => .reply (.ok ((r.lookup redisKey).map RedisHash.fingerprint)) r
  | .delete redisKey, .go, r => .reply (.ok ()) (r.write redisKey none)
  | _, _, _ => .refuse

/-- Time passes on the server. -/
def tick (r : Redis) (elapsed : Seconds) : Option Redis :=
  if 0 ≤ elapsed then some { r with now := r.now + elapsed } else none

end Redis

end PySwitch
