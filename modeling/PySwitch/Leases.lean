import PySwitch.CreateWorkers
import PySwitch.LeaseProtocol

namespace PySwitch.Lease

open Async Workers

/-- The calls that have been made: the entry each of them asks for, and how far it has come. -/
abbrev Calls : Type := Tid → Option (Entry × Stage)

/-- Every call at work finds its own fingerprint in the entry of its key, unless the entry has
run out of its time to live, and no other call is at work with that entry. -/
structure Held (r : Redis) (f : Calls) : Prop where
  entry : ∀ {t q g}, f t = some (q, g) → g.inside = true →
    ∃ hash, r.hashes q.redisKey = some hash ∧ hash.fingerprint = q.fingerprint
  single : ∀ {t u q q' g g'}, f t = some (q, g) → f u = some (q', g') → g.inside = true →
    g'.inside = true → q.redisKey = q'.redisKey → t = u

/-- No entry of a call at work has run out of its time to live. -/
def Live (r : Redis) (f : Calls) : Prop :=
  ∀ t q g, f t = some (q, g) → g.inside = true →
    ∀ hash, r.hashes q.redisKey = some hash → r.expired hash = false

section Redis

variable {r r' : Redis} {f : Calls} {t : Tid} {q : Entry} {g g' : Stage}

theorem Held.lookup (held : Held r f) (live : Live r f) (hf : f t = some (q, g))
    (inside : g.inside = true) :
    ∃ hash, r.lookup q.redisKey = some hash ∧ hash.fingerprint = q.fingerprint := by
  obtain ⟨hash, found, own⟩ := held.entry hf inside
  have fresh := live t q g hf inside hash found
  exact ⟨hash, by simp [Redis.lookup, found, fresh], own⟩

theorem Held.quit (held : Held r f) (outside : g'.inside = false) :
    Held r (Function.update f t (some (q, g'))) where
  entry := fun hu inside => by
    obtain ⟨-, same⟩ | ⟨-, hu⟩ := update_cases hu
    · cases same
      cases outside.symm.trans inside
    · exact held.entry hu inside
  single := fun hu hv inside inside' same => by
    obtain ⟨-, ⟨⟩⟩ | ⟨-, hu⟩ := update_cases hu
    · cases outside.symm.trans inside
    obtain ⟨-, ⟨⟩⟩ | ⟨-, hv⟩ := update_cases hv
    · cases outside.symm.trans inside'
    exact held.single hu hv inside inside' same

/-- A call changes an entry with which nobody else is at work. -/
theorem Held.own (held : Held r f)
    (alone : ∀ u p i, u ≠ t → f u = some (p, i) → i.inside = true → p.redisKey ≠ q.redisKey)
    (others : ∀ k, k ≠ q.redisKey → r'.hashes k = r.hashes k)
    (self : g'.inside = true →
      ∃ hash, r'.hashes q.redisKey = some hash ∧ hash.fingerprint = q.fingerprint) :
    Held r' (Function.update f t (some (q, g'))) where
  entry := fun hu inside => by
    obtain ⟨-, ⟨⟩⟩ | ⟨other, hu⟩ := update_cases hu
    · exact self inside
    · rw [others _ (alone _ _ _ other hu inside)]
      exact held.entry hu inside
  single := fun hu hv inside inside' same => by
    obtain ⟨rfl, ⟨⟩⟩ | ⟨unlike, first⟩ := update_cases hu
    · obtain ⟨rfl, -⟩ | ⟨unlike, second⟩ := update_cases hv
      · rfl
      · exact absurd same.symm (alone _ _ _ unlike second inside')
    · obtain ⟨rfl, ⟨⟩⟩ | ⟨-, second⟩ := update_cases hv
      · exact absurd same (alone _ _ _ unlike first inside)
      · exact held.single first second inside inside' same

theorem Held.alone (held : Held r f) (hf : f t = some (q, g)) (inside : g.inside = true) :
    ∀ u p i, u ≠ t → f u = some (p, i) → i.inside = true → p.redisKey ≠ q.redisKey :=
  fun _ _ _ other hu inside' same => other (held.single hu hf inside' inside same)

theorem write_other (redisKey : String) (hash : Option RedisHash) :
    ∀ k, k ≠ redisKey → (r.write redisKey hash).hashes k = r.hashes k :=
  fun _ other => Function.update_of_ne other ..

theorem expire_other (redisKey : String) (ttl : ℕ) :
    ∀ k, k ≠ redisKey → (r.expire redisKey ttl).hashes k = r.hashes k := by
  intro k other
  unfold Redis.expire
  split
  · exact write_other redisKey _ k other
  · rfl

/-- The claim script gives the claim on an entry that is not there, or leaves Redis alone. -/
theorem claimScript_reply {redisKey fingerprint : String} {ttl : ℕ}
    {x : Except Exn IdempotencyDecision}
    (h : r.claimScript redisKey fingerprint ttl = .reply x r') :
    r.lookup redisKey = none ∧ x = .ok ⟨.claimed, none⟩ ∧
        r' = r.write redisKey (some ⟨.processing, fingerprint, none, some (r.now + ttl)⟩) ∨
      r' = r ∧ next .fresh (.redis (.claim redisKey fingerprint ttl)) x = .settled := by
  unfold Redis.claimScript at h
  split at h
  · rename_i vacant
    cases h
    exact .inl ⟨vacant, rfl, rfl⟩
  · split at h
    · cases h
      exact .inr ⟨rfl, rfl⟩
    · split at h
      · cases h
        exact .inr ⟨rfl, rfl⟩
      · cases h

/-- A command keeps the entries of the calls at work apart, and does not fail for its caller. -/
theorem held_reply {e : RedisEffect} {x : e.Reply} (held : Held r f) (live : Live r f)
    (hf : f t = some (q, g)) (hok : ok q g (.redis e)) (h : Redis.resume e .go r = .reply x r') :
    may q (.redis e) x ∧ Held r' (Function.update f t (some (q, next g (.redis e) x))) := by
  cases e with
  | claim redisKey fingerprint ttl =>
    refine ⟨trivial, ?_⟩
    cases g with
    | fresh =>
      obtain ⟨rfl, rfl⟩ := hok
      obtain ⟨vacant, rfl, rfl⟩ | ⟨rfl, settled⟩ := claimScript_reply h
      · apply held.own
        · intro u p i _ hu inside same
          obtain ⟨hash, found, -⟩ := held.lookup live hu inside
          rw [same, vacant] at found
          cases found
        · exact write_other q.redisKey _
        · exact fun _ => ⟨_, Function.update_self .., rfl⟩
      · rw [settled]
        exact held.quit rfl
    | _ => exact hok.elim
  | hset redisKey fingerprint paymentId =>
    cases g with
    | holding =>
      obtain ⟨rfl, rfl⟩ := hok
      cases h
      exact ⟨trivial, held.own (held.alone hf rfl) (write_other q.redisKey _)
        fun _ => ⟨_, Function.update_self .., rfl⟩⟩
    | _ => exact hok.elim
  | expire redisKey ttl =>
    cases g with
    | marked =>
      obtain rfl : redisKey = q.redisKey := hok
      cases h
      exact ⟨trivial, held.own (held.alone hf rfl) (expire_other q.redisKey ttl) nofun⟩
    | _ => exact hok.elim
  | hget redisKey =>
    cases g with
    | holding =>
      obtain rfl : redisKey = q.redisKey := hok
      obtain ⟨hash, found, own⟩ := held.lookup live hf rfl
      cases h
      refine ⟨?_, held.own (held.alone hf rfl) (fun _ _ => rfl) fun _ => held.entry hf rfl⟩
      simp only [may, found, Option.map_some, own]
    | _ => exact hok.elim
  | delete redisKey =>
    cases g with
    | leaving =>
      obtain rfl : redisKey = q.redisKey := hok
      cases h
      exact ⟨trivial, held.own (held.alone hf rfl) (write_other q.redisKey _) nofun⟩
    | _ => exact hok.elim

end Redis

section Workers

/-- The coordinator over Redis, instead of the one of the configuration. -/
def onRedis (cfg : Config) (ttl : ℕ) : Config :=
  { cfg with coordinator := .redis cfg.sha256 ttl }

theorem redis_onRedis (cfg : Config) (ttl : ℕ) :
    (onRedis cfg ttl).coordinator = .redis (onRedis cfg ttl).sha256 ttl := rfl

def discipline (cfg : Config) :
    Discipline PaymentInput Effect Effect.Reply (Except Exn Payment) Stage where
  protocol data := protocol (entryOf cfg.sha256 data)
  first _ := .fresh
  post _ _ g := g = .settled

abbrev Statuses : Type := Tid → Option (Status PaymentInput Stage)

def calls (sha256 : List Char → String) (st : Statuses) : Calls := fun t =>
  (st t).map fun u => (entryOf sha256 u.call, u.phase)

/-- How far a call has come is read off the replies it was given. -/
def stage (T : WorkersTask) : Stage := T.trace.foldl (fun g ev => next g ev.1 ev.2) .fresh

/-- The call of a task is past a `CLAIMED` answer and before the end of its own `complete` or
`abort`. -/
def AtWork (s : WorkersState) (t : Tid) (data : PaymentInput) : Prop :=
  ∃ T, s.tasks t = some T ∧ T.call = data ∧ (stage T).inside = true

/-- No entry runs out of its time to live while the call that claimed it is at work. -/
def Lasting (sha256 : List Char → String) (s : WorkersState) : Prop :=
  ∀ t data, AtWork s t data → ∀ hash,
    s.world.shared.redis.hashes (redisKey sha256 data.key) = some hash →
      s.world.shared.redis.expired hash = false

def Inv (cfg : Config) (c : Cluster) (_ : Option Tid) (st : Statuses) : Prop :=
  Held c.shared.redis (calls cfg.sha256 st)

variable {cfg : Config} {ttl : ℕ} {profile : Profile} {worker : Tid → ℕ} {s : WorkersState}
  {l : WorkersLabel} {t : Tid} {e : Effect} {c : Cluster}

theorem calls_update (sha256 : List Char → String) (st : Statuses) (data : PaymentInput)
    (g : Stage) (b : Bool) : calls sha256 (Function.update st t (some ⟨data, g, b⟩)) =
      Function.update (calls sha256 st) t (some (entryOf sha256 data, g)) := by
  funext u
  by_cases hu : u = t
  · subst hu
    simp [calls]
  · simp [calls, hu]

theorem live_of_lasting (lasting : Lasting cfg.sha256 s) :
    Live s.world.shared.redis (calls cfg.sha256 ((discipline cfg).statuses s)) := by
  intro u q g hu inside hash found
  obtain ⟨x, hx, same⟩ := Option.map_eq_some_iff.mp hu
  obtain ⟨T, task, rfl⟩ := (discipline cfg).statuses_some hx
  obtain ⟨rfl, rfl⟩ := Prod.mk.inj same
  exact lasting u T.call ⟨T, task, rfl, inside⟩ hash found

theorem reply_redis {r : e.Reply} (he : ∀ a, e ≠ .redis a)
    (h : Delivered (workers (onRedis cfg ttl) profile worker) s l t e (.reply r c)) :
    c.shared.redis = s.world.shared.redis := by
  obtain ⟨s', l', w, hs, rfl, delivered, -⟩ := reply_alone h
  rw [Cluster.setWorld_shared, (reply_touches delivered).redis he, hs]
  rfl

theorem wait_redis
    (h : Delivered (workers (onRedis cfg ttl) profile worker) s l t e (.wait c)) :
    c.shared.redis = s.world.shared.redis := by
  obtain ⟨s', l', w, hs, rfl, delivered, -⟩ := wait_alone h
  rw [Cluster.setWorld_shared]
  by_cases he : ∃ a, e = .redis a
  · obtain ⟨a, rfl⟩ := he
    rw [redis_wait delivered, hs]
    rfl
  · rw [(wait_touches delivered).redis (fun a ha => he ⟨a, ha⟩), hs]
    rfl

theorem outside_hashes {a : Outside} {w w' : World} (h : a.apply w = some w') :
    w'.shared.redis.hashes = w.shared.redis.hashes := by
  cases a with
  | setProviderConcurrency p limit =>
    cases h
    rfl
  | tick elapsed =>
    obtain ⟨m, moved, rfl⟩ := Option.map_eq_some_iff.mp h
    unfold Redis.tick at moved
    split at moved
    · cases moved
      rfl
    · cases moved

theorem Held.same {r r' : Redis} {f : Calls} (held : Held r f) (hashes : r'.hashes = r.hashes) :
    Held r' f where
  entry := fun hu inside => by
    rw [hashes]
    exact held.entry hu inside
  single := held.single

theorem maintains (cfg : Config) (ttl : ℕ) (profile : Profile) (worker : Tid → ℕ) :
    Maintains (workers (onRedis cfg ttl) profile worker) (fun s _ => Lasting cfg.sha256 s)
      (discipline cfg) (Inv cfg) where
  follows := fun data => start_follows (create_wp (redis_onRedis cfg ttl) data)
  call := fun {s t data b v} _ inv _ _ => by
    rw [Inv, calls_update]
    exact inv.quit rfl
  reply := fun {s l t data g e r w} lasting inv ht hok h => by
    have hf : calls cfg.sha256 ((discipline cfg).statuses s) t =
        some (entryOf cfg.sha256 data, g) := by
      rw [calls, ht, Option.map_some]
    by_cases he : ∃ a, e = .redis a
    · obtain ⟨a, rfl⟩ := he
      obtain ⟨s', l', w', hs, rfl, delivered, -⟩ := reply_alone h
      obtain ⟨m, answered, rfl⟩ := redis_reply delivered
      rw [hs] at answered
      obtain ⟨may, kept⟩ := held_reply inv (live_of_lasting lasting) hf hok answered
      refine ⟨may, fun b v _ => ?_⟩
      rw [Inv, calls_update]
      exact kept
    · have other : ∀ a, e ≠ .redis a := fun a ha => he ⟨a, ha⟩
      refine ⟨?_, fun b v _ => ?_⟩
      · cases e <;> first | trivial | exact absurd rfl (other _)
      · have stays : ((discipline cfg).protocol data).next g e r = g := next_other other g r
        rw [Inv, calls_update, stays, ← hf, Function.update_eq_self]
        exact inv.same (by rw [reply_redis other h])
  wait := fun _ inv _ _ h => inv.same (by rw [wait_redis h])
  outside := fun {s a w} _ inv moved => by
    obtain ⟨w', applied, rfl⟩ := outside_alone moved
    exact inv.same (outside_hashes applied)

theorem held_empty (r : Redis) : Held r fun _ => none := ⟨nofun, nofun⟩

/-- At most one call at a time is at work for a key. -/
def Exclusive (s : WorkersState) : Prop :=
  ∀ t u data data', AtWork s t data → AtWork s u data' → data.key = data'.key → t = u

theorem exclusive_of_held (cfg : Config)
    (held : Held s.world.shared.redis (calls cfg.sha256 ((discipline cfg).statuses s))) :
    Exclusive s := by
  rintro t u _ _ ⟨T, task, rfl, inside⟩ ⟨U, task', rfl, inside'⟩ same
  have known {v : Tid} {V : WorkersTask} (hv : s.tasks v = some V) :
      calls cfg.sha256 ((discipline cfg).statuses s) v =
        some (entryOf cfg.sha256 V.call, stage V) := by
    rw [calls, (discipline cfg).statuses_of_task hv, Option.map_some]
    rfl
  exact held.single (known task) (known task') inside inside' (congrArg (redisKey cfg.sha256) same)

end Workers

end PySwitch.Lease
