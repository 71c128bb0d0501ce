import PySwitch.ExactlyOnce
import PySwitch.OrphanClaims

namespace PySwitch.Claim

open Async Service MemoryIdempotencyCoordinator

def errorCode : Exn → Option String
  | .provider error => some error.code
  | .idempotencyConflict _ => some "DUPLICATE_REQUEST"
  | .idempotencyUnavailable _ => some "INTERNAL_ERROR"
  | .refund _ code => some code
  | _ => none

/-- Two calls return the same payment, or raise errors with the same code. -/
def SameOutcome : Except Exn Result → Except Exn Result → Prop
  | .ok (.payment p), .ok (.payment p') => p = p'
  | .error x, .error y => errorCode x = errorCode y
  | _, _ => False

def savedPayment : ((e : Effect) × e.Reply) → Option Payment
  | ⟨.store (.save p), _⟩ => some p
  | ⟨.store (.saveWithEvents p _), _⟩ => some p
  | _ => none

def SavedBy (s : ServiceState) (t : Tid) (p : Payment) : Prop :=
  ∃ T, s.tasks t = some T ∧ ∃ x ∈ T.trace, savedPayment x = some p

def Stage.has (p : Payment) : Stage → Prop
  | .stored p' => p' = p
  | .completed p' => p' = p
  | _ => False

theorem next_has {p : Payment} {g : Stage} {e : Effect} (r : e.Reply) (h : g.has p) :
    (next g e r).has p := by
  unfold next
  split <;> first | exact h | exact h.elim

theorem next_saves {q : Request} {p : Payment} {g : Stage} {e : Effect} {r : e.Reply}
    (hok : ok q g e) (h : savedPayment ⟨e, r⟩ = some p) : (next g e r).has p := by
  cases e with
  | store e =>
    cases e with
    | save p' =>
      obtain rfl := Option.some.inj h
      cases g <;> first | rfl | cases hok.1
    | saveWithEvents p' events =>
      obtain rfl := Option.some.inj h
      cases g <;> first | rfl | cases hok.1
    | _ => cases h
  | _ => cases h

theorem won_of_has {p : Payment} {g : Stage} (h : g.has p) : g.won := by
  cases g <;> trivial

section Runs

variable {cfg : Config} {profile : Profile} (direct : cfg.coordinator = .direct)
  (memory : profile.coordinator = .memory) (storage : profile.storage = .memory)

include direct memory storage

theorem has_of_savedBy {s s' : ServiceState} (kept : (discipline cfg).Kept s)
    (inv : Inv cfg s.world s.running ((discipline cfg).statuses s))
    (first : ∀ {t T p}, s.tasks t = some T → (∃ x ∈ T.trace, savedPayment x = some p) →
      ((discipline cfg).phase T).has p)
    (h : Reaches (system cfg profile) Creates s s') {t : Tid} {T : ServiceTask} {p : Payment}
    (task : s'.tasks t = some T) (saved : ∃ x ∈ T.trace, savedPayment x = some p) :
    ((discipline cfg).phase T).has p := by
  suffices all : ((discipline cfg).Kept s' ∧
      Inv cfg s'.world s'.running ((discipline cfg).statuses s')) ∧
      ∀ t T p, s'.tasks t = some T → (∃ x ∈ T.trace, savedPayment x = some p) →
        ((discipline cfg).phase T).has p from all.2 t T p task saved
  refine h.invariant (I := fun s => ((discipline cfg).Kept s ∧
      Inv cfg s.world s.running ((discipline cfg).statuses s)) ∧
      ∀ t T p, s.tasks t = some T → (∃ x ∈ T.trace, savedPayment x = some p) →
        ((discipline cfg).phase T).has p) ⟨⟨kept, inv⟩, fun t T p => first⟩ ?_
  rintro s l s' ⟨⟨kept, inv⟩, old⟩ meets moved
  refine ⟨(maintains direct memory storage).step kept inv meets moved, ?_⟩
  intro u U p hU hx
  cases step_moves _ moved with
  | @call t c idle new =>
    by_cases hut : u = t
    · subst u
      obtain rfl : _ = U := by simpa using hU
      obtain ⟨x, hx, -⟩ := hx
      cases hx
    · exact old u U p (by simpa [State.put, hut] using hU) hx
  | @reply l t T e k r w task code delivered =>
    by_cases hut : u = t
    · subst u
      obtain rfl : _ = U := by simpa using hU
      obtain ⟨data, hcall⟩ := inv.creates ((discipline cfg).statuses_of_task task)
      have hok := kept t T task
      obtain ⟨c, code', trace⟩ := T
      obtain rfl : c = .create data := hcall
      obtain rfl : code' = .perform e k := code
      rw [(discipline cfg).phase_reply ⟨.create data, .perform e k, trace⟩]
      obtain ⟨x, hx, saved⟩ := hx
      obtain hx | hx := List.mem_append.mp hx
      · exact next_has r (old t _ p task ⟨x, hx, saved⟩)
      · obtain rfl := List.mem_singleton.mp hx
        exact next_saves hok.1 saved
    · exact old u U p (by simpa [State.put, hut] using hU) hx
  | wait task code delivered => exact old u U p hU hx
  | outside idle stepped => exact old u U p hU hx

end Runs

section Following

variable {cfg : Config} {profile : Profile} {s : ServiceState} {l : ServiceLabel} {t : Tid}
  {w : World} {p : Payment}

def Stage.following (p : Payment) : Stage → Prop
  | .fresh => True
  | .left => True
  | .replaying id => id = p.id
  | .replayed found => found = some p
  | _ => False

def Follows (cfg : Config) (p : Payment) (t : Tid) (st : Statuses) : Prop :=
  ∀ u q, st t = some u → request cfg u.call = some q → Matches q p → u.phase.following p

theorem following_of_decided {data : PaymentInput} {r : Except Exn IdempotencyDecision}
    (memory : profile.coordinator = .memory) {st : Statuses} {v : Option Tid}
    (inv : Inv cfg s.world v st) (found : s.world.store.payments p.id = some p)
    (fits : Matches (requestOf cfg data) p) (good : Good w (requestOf cfg data) (decided r))
    (keyed : w.store.keys (requestOf cfg data).key = some p.id)
    (stored : Stored w (requestOf cfg data) p)
    (h : Delivered (system cfg profile) s l t (.coordinator (.acquire (requestOf cfg data).key
      (requestOf cfg data).fingerprint)) (.reply r w)) : (decided r).following p := by
  obtain ⟨record, hr, fingerprint⟩ := record_of_stored inv found
  rw [fits.key] at hr
  rw [fits.fingerprint] at fingerprint
  obtain ⟨c, decides, -⟩ := acquire_direct_reply memory h
  cases decides with
  | claimed vacant records events => cases vacant.symm.trans hr
  | conflict found differs unmoved =>
    obtain rfl := Option.some.inj (found.symm.trans hr)
    exact absurd fingerprint differs
  | @completed _ record' found same completed unmoved =>
    cases hid : record'.paymentId with
    | none =>
      rw [hid] at good
      obtain ⟨p', hp, -⟩ := good.replayed rfl
      cases hp
    | some id =>
      rw [hid] at good
      obtain ⟨p', rfl, stored'⟩ := good.replaying rfl
      obtain rfl := stored'.unique stored rfl
      rfl
  | lost found pending event => trivial
  | cancelled unmoved => trivial

theorem follows_extends (memory : profile.coordinator = .memory)
    (storage : profile.storage = .memory) (p : Payment) (t : Tid) :
    Extends (system cfg profile) Creates (discipline cfg)
      (fun w v st => Inv cfg w v st ∧ w.store.payments p.id = some p)
      fun _ _ st => Follows cfg p t st where
  call := fun _ follows new _ u q hu hq hm => by
    obtain ⟨-, rfl⟩ | ⟨-, hu⟩ := update_cases hu
    · trivial
    · exact follows u q hu hq hm
  reply := fun {s l t' c g e r w} _ base follows ht hok h b v _ base' u q hu hq hm => by
    obtain ⟨data, rfl⟩ := base.1.creates ht
    obtain ⟨rfl, rfl⟩ | ⟨-, hu⟩ := update_cases hu
    · cases hq
      have good : Good w (requestOf cfg data) (next g e r) :=
        base'.1.good (Function.update_self ..) rfl
      have keyed := (base'.1.books.keyed base'.2).2.1
      rw [hm.key] at keyed
      have stored : Stored w (requestOf cfg data) p := ⟨keyed, base'.2, hm⟩
      have following := follows _ _ ht rfl hm
      cases g with
      | fresh =>
        cases e with
        | coordinator e =>
          cases e with
          | acquire key fingerprint =>
            obtain ⟨rfl, rfl⟩ := hok
            exact following_of_decided memory base.1 base.2 hm good keyed stored h
          | _ => exact hok.elim
        | store e => cases e <;> first | cases hok.1 | exact hok.elim
        | _ => exact hok.elim
      | replaying id =>
        cases e with
        | store e =>
          cases e with
          | get paymentId =>
            obtain rfl : paymentId = id := hok
            obtain rfl : paymentId = p.id := following
            obtain ⟨rfl, -⟩ := store_reply storage h
            exact base.2
          | _ => first | cases hok.1 | exact hok.elim
        | _ => exact hok.elim
      | left =>
        cases e with
        | store e => cases e <;> first | cases hok.1 | exact hok.elim
        | _ => exact hok.elim
      | replayed found =>
        cases e with
        | store e => cases e <;> first | cases hok.1 | exact hok.elim
        | _ => exact hok.elim
      | _ => exact following.elim
    · exact follows u q hu hq hm
  wait := fun _ _ follows _ _ _ => follows
  outside := fun _ follows _ => follows

end Following

section Answered

variable {cfg : Config} {profile : Profile} {s : ServiceState} {t : Tid} {data : PaymentInput}
  {p : Payment}

theorem completed_of_stored {w : World} {st : Statuses} (inv : Inv cfg w none st)
    (found : w.store.payments p.id = some p) :
    records w p.key = some ⟨p.requestFingerprint, some p.id, true⟩ := by
  have keyed := (inv.books.keyed found).2.1
  have stored : Stored w ⟨p.key, p.requestFingerprint⟩ p := ⟨keyed, found, rfl, rfl⟩
  obtain ⟨⟨fingerprint, paymentId, completed⟩, hr, rfl⟩ := record_of_stored inv found
  cases completed with
  | true =>
    obtain ⟨p', rfl, stored'⟩ := inv.books.completed hr rfl
    obtain rfl := stored.unique stored' rfl
    exact hr
  | false =>
    obtain ⟨u, x, q, hu, hq, hk, holds⟩ := inv.held hr rfl
    have unkeyed := (inv.good hu hq).unkeyed holds fun p' hp => by
      have pending : x.phase.pending := by rw [hp]; trivial
      cases inv.pending hu pending
    rw [hk, keyed] at unkeyed
    cases unkeyed

theorem fresh_code {c : Coroutine Effect Effect.Reply (Except Exn Result)}
    (follows : c.Follows (protocol (requestOf cfg data)) ((discipline cfg).post (.create data))
      .fresh) :
    ∃ k, c = .perform (.coordinator (.acquire (requestOf cfg data).key
        (requestOf cfg data).fingerprint)) k ∧
      ∀ id, (k (.ok ⟨.completed, some id⟩)).Follows (protocol (requestOf cfg data))
        ((discipline cfg).post (.create data)) (.replaying id) := by
  cases c with
  | done a =>
    obtain x | (p | _ | _) := a
    · obtain ⟨h, -⟩ | ⟨h, -⟩ | h | h | ⟨p, h, -⟩ := follows <;> cases h
    · obtain ⟨h, -⟩ | h := follows <;> cases h
    · exact follows.elim
    · exact follows.elim
  | perform e k =>
    have hok := follows.1
    cases e with
    | coordinator e =>
      cases e with
      | acquire key fingerprint =>
        obtain ⟨rfl, rfl⟩ := hok
        exact ⟨k, rfl, fun id => follows.2 (.ok ⟨.completed, some id⟩) trivial⟩
      | _ => exact hok.elim
    | store e => cases e <;> first | cases hok.1 | exact hok.elim
    | _ => exact hok.elim

theorem replaying_code {c : Coroutine Effect Effect.Reply (Except Exn Result)} {id : Uuid}
    (follows : c.Follows (protocol (requestOf cfg data)) ((discipline cfg).post (.create data))
      (.replaying id)) :
    ∃ k, c = .perform (.store (.get id)) k ∧
      ∀ p, k (.ok (some p)) = .done (.ok (.payment p)) := by
  cases c with
  | done a =>
    obtain x | (p | _ | _) := a
    · obtain ⟨h, -⟩ | ⟨h, -⟩ | h | h | ⟨p, h, -⟩ := follows <;> cases h
    · obtain ⟨h, -⟩ | h := follows <;> cases h
    · exact follows.elim
    · exact follows.elim
  | perform e k =>
    have hok := follows.1
    cases e with
    | store e =>
      cases e with
      | get id' =>
        obtain rfl : id' = id := hok
        refine ⟨k, rfl, fun p => ?_⟩
        have after := follows.2 (.ok (some p)) trivial
        revert after
        show (k (.ok (some p))).Follows _ _ (Stage.replayed (some p)) → _
        cases k (.ok (some p)) with
        | perform e k' =>
          intro after
          have hok := after.1
          cases e with
          | store e => cases e <;> first | cases hok.1 | exact hok.elim
          | _ => exact hok.elim
        | done a =>
          intro after
          obtain x | (p' | _ | _) := a
          · obtain ⟨h, -⟩ | ⟨h, -⟩ | h | h | ⟨p, h, -⟩ := after <;> cases h
          · obtain ⟨h, -⟩ | h := after <;> cases h
            rfl
          · exact after.elim
          · exact after.elim
      | _ => first | cases hok.1 | exact hok.elim
    | _ => exact hok.elim

def told (q : Request) (id : Uuid) : (e : Effect) × e.Reply :=
  ⟨.coordinator (.acquire q.key q.fingerprint), .ok ⟨.completed, some id⟩⟩

theorem acquire_completed {c : MemoryIdempotencyCoordinator} {q : Request} {id : Uuid}
    (found : c.records q.key = some ⟨q.fingerprint, some id, true⟩) :
    c.acquire t q.key q.fingerprint = .reply (.ok ⟨.completed, some id⟩) c := by
  simp [acquire, found]

variable (memory : profile.coordinator = .memory) (storage : profile.storage = .memory)

include storage

theorem get_returns (call : Call) (trace : List ((e : Effect) × e.Reply)) {w : World}
    {c : Coroutine Effect Effect.Reply (Except Exn Result)}
    (follows : c.Follows (protocol (requestOf cfg data)) ((discipline cfg).post (.create data))
      (.replaying p.id)) (found : w.store.payments p.id = some p) :
    ∃ s', run (system cfg profile) [.enter t .go] (s.put t ⟨call, c, trace⟩ w) = some s' ∧
      s'.result t = some (.ok (.payment p)) := by
  obtain ⟨k, rfl, returns⟩ := replaying_code follows
  have answer : Effect.enter profile t (.store (.get p.id)) .go w =
      .reply (.ok (some p)) (Effect.setStore w (w.store.commit (.get p.id))) := by
    simp only [Effect.enter, storage, InMemoryPaymentStore.enter, Answer.lift,
      InMemoryPaymentStore.answer, InMemoryPaymentStore.get]
    rw [show w.shared.store.payments p.id = some p from found]
    rfl
  have entered := step_enter (system cfg profile)
    (put_running s t (T := ⟨call, .perform (.store (.get p.id)) k, trace⟩) w rfl)
    (put_task ..) rfl answer
  exact ⟨_, run_cons _ entered rfl, put_result _ _ _ (returns p)⟩

include memory

variable (kept : (discipline cfg).Kept s)
  (inv : Inv cfg s.world s.running ((discipline cfg).statuses s)) (idle : s.running = none)
  (found : s.world.store.payments p.id = some p) (fits : Matches (requestOf cfg data) p)

include inv idle found fits

omit storage memory in
theorem record_of_idle : s.world.process.idempotency.records (requestOf cfg data).key =
    some ⟨(requestOf cfg data).fingerprint, some p.id, true⟩ := by
  have completed := completed_of_stored (idle ▸ inv) found
  rw [fits.key, fits.fingerprint] at completed
  exact completed

/-- A new call with the data of a stored payment returns it. -/
theorem create_replays (direct : cfg.coordinator = .direct) (new : s.tasks t = none) :
    ∃ s', run (system cfg profile) [.call t (.create data), .enter t .go, .enter t .go] s =
      some s' ∧ s'.result t = some (.ok (.payment p)) := by
  obtain ⟨k, asks, follows⟩ := fresh_code (run_follows direct (.create data))
  have answer : Effect.enter profile t (.coordinator (.acquire (requestOf cfg data).key
      (requestOf cfg data).fingerprint)) .go s.world =
      .reply (.ok ⟨.completed, some p.id⟩) s.world := by
    simp only [Effect.enter, memory, MemoryIdempotencyCoordinator.enter,
      acquire_completed (record_of_idle inv idle found fits)]
    rfl
  have called := step_call (system cfg profile) (c := .create data) idle new
  have entered := step_enter (system cfg profile) (put_running s t
    (T := Async.Task.spawn (.create data) ((system cfg profile).program (.create data))) s.world
    asks) (put_task ..) asks answer
  obtain ⟨s', rest, result⟩ := get_returns storage (.create data)
    ([] ++ [told (requestOf cfg data) p.id]) (follows p.id) found
  exact ⟨s', run_cons _ called (run_cons _ entered rest), result⟩

include kept in
/-- A call that waits for the owner of a stored payment's key is woken and returns it. -/
theorem waiting_replays {T : ServiceTask} (task : s.tasks t = some T)
    (call : T.call = .create data) (reached : s.At t (.coordinator (.acquire
      (requestOf cfg data).key (requestOf cfg data).fingerprint)))
    (attended : Owner.NobodyForgotten Effect.coordinator (fun w => w.process.idempotency) s) :
    ∃ s', run (system cfg profile) [.resume t .go, .enter t .go] s = some s' ∧
      s'.result t = some (.ok (.payment p)) := by
  have record := record_of_idle inv idle found fits
  obtain ⟨event, waiting, set | awaited⟩ := attended reached (by rw [idle]; nofun)
  · have answer : Effect.resume profile t (.coordinator (.acquire (requestOf cfg data).key
        (requestOf cfg data).fingerprint)) .go s.world =
        .reply (.ok ⟨.completed, some p.id⟩)
          (Effect.setIdempotency s.world (s.world.process.idempotency.forget t)) := by
      simp only [Effect.resume, memory, MemoryIdempotencyCoordinator.resume, waiting, set, if_true]
      rw [acquire_completed (c := s.world.process.idempotency.forget t) record]
      rfl
    have follows := kept t T task
    obtain ⟨T', task', head⟩ := reached
    obtain rfl := Option.some.inj (task.symm.trans task')
    obtain ⟨c, code, trace⟩ := T
    obtain rfl : c = .create data := call
    cases code with
    | done a => cases head
    | perform e k =>
      cases head
      have hok := follows.1
      generalize (discipline cfg).phase ⟨.create data, _, trace⟩ = g at follows hok
      cases g with
      | fresh =>
        have resumed := step_resume (system cfg profile) idle task rfl answer
        obtain ⟨s', rest, result⟩ := get_returns storage (.create data)
          (trace ++ [told (requestOf cfg data) p.id])
          (follows.2 (.ok ⟨.completed, some p.id⟩) trivial)
          (w := Effect.setIdempotency s.world (s.world.process.idempotency.forget t)) found
        exact ⟨s', run_cons _ resumed rest, result⟩
      | _ => exact hok.elim
  · obtain ⟨r, found', unfinished, -⟩ := awaited.unfinished
    obtain rfl := Option.some.inj (record.symm.trans found')
    cases unfinished

end Answered

/-- What a payment saved by one call means for the other calls with its data. -/
structure Replays (cfg : Config) (profile : Profile) (p : Payment) (t : Tid)
    (s s' : ServiceState) : Prop where
  agrees : ∀ {u data a b}, u ≠ t → callOf s' u = some (.create data) →
    Matches (requestOf cfg data) p → (∀ U, s.tasks u = some U → U.code.isDone = false) →
    s'.result t = some a → s'.result u = some b → b ≠ .error .cancelled →
    b = .ok (.payment p) ∧ (SameOutcome a b ↔ p.status = .succeeded)
  later : ∀ {u data}, s'.running = none → s'.tasks u = none → Matches (requestOf cfg data) p →
    ∃ s'', run (system cfg profile) [.call u (.create data), .enter u .go, .enter u .go] s' =
      some s'' ∧ s''.result u = some (.ok (.payment p))
  waiting : ∀ {u data}, s'.running = none → callOf s' u = some (.create data) →
    s'.At u (.coordinator (.acquire (requestOf cfg data).key (requestOf cfg data).fingerprint)) →
    Matches (requestOf cfg data) p →
    ∃ s'', run (system cfg profile) [.resume u .go, .enter u .go] s' = some s'' ∧
      s''.result u = some (.ok (.payment p))

section Outcome

variable {cfg : Config} {data : PaymentInput} {p : Payment}

theorem stored_of_has {w : World} {q : Request} {g : Stage} (good : Good w q g) (h : g.has p) :
    Stored w q p := by
  cases g with
  | stored p' =>
    obtain rfl : p' = p := h
    exact good.stored rfl
  | completed p' =>
    obtain rfl : p' = p := h
    exact (good.completed rfl).1
  | _ => exact h.elim

theorem following_result {g : Stage} {b : Except Exn Result} (following : g.following p)
    (h : (discipline cfg).post (.create data) b g) (going : b ≠ .error .cancelled) :
    b = .ok (.payment p) := by
  obtain x | (p' | _ | _) := b
  · obtain ⟨rfl, -⟩ | ⟨-, rfl⟩ | rfl | rfl | ⟨p', rfl, -⟩ := h
    · exact following.elim
    · exact absurd rfl going
    · exact following.elim
    · cases following
    · exact following.elim
  · obtain ⟨rfl, -⟩ | rfl := h
    · exact following.elim
    · cases following
      rfl
  · exact h.elim
  · exact h.elim

theorem owner_agrees {g : Stage} {a : Except Exn Result} (has : g.has p)
    (h : (discipline cfg).post (.create data) a g) :
    SameOutcome a (.ok (.payment p)) ↔ p.status = .succeeded := by
  obtain x | (p' | _ | _) := a
  · obtain ⟨rfl, -⟩ | ⟨rfl, -⟩ | rfl | rfl | ⟨p', rfl, failed, -⟩ := h
    · exact has.elim
    · exact has.elim
    · exact has.elim
    · exact has.elim
    · obtain rfl : p' = p := has
      rw [failed]
      exact ⟨False.elim, nofun⟩
  · obtain ⟨rfl, -, succeeded⟩ | rfl := h
    · obtain rfl : p' = p := has
      exact ⟨fun _ => succeeded, fun _ => rfl⟩
    · exact has.elim
  · exact h.elim
  · exact h.elim

theorem result_post {s : ServiceState} (kept : (discipline cfg).Kept s) {t : Tid}
    {T : ServiceTask} {a : Except Exn Result} (task : s.tasks t = some T)
    (call : T.call = .create data) (h : s.result t = some a) :
    (discipline cfg).post (.create data) a ((discipline cfg).phase T) := by
  obtain ⟨T', task', result⟩ := Option.bind_eq_some_iff.mp h
  obtain rfl := Option.some.inj (task.symm.trans task')
  have follows := kept t T task
  obtain ⟨c, code, trace⟩ := T
  obtain rfl : c = .create data := call
  cases code with
  | perform e k => cases result
  | done a' =>
    obtain rfl := Option.some.inj result
    exact follows

theorem following_of_open {s : ServiceState} (kept : (discipline cfg).Kept s)
    (inv : Inv cfg s.world s.running ((discipline cfg).statuses s)) {t u : Tid} {T : ServiceTask}
    {u' : Status Call Stage} {q q' : Request} (ne : u ≠ t)
    (owner : (discipline cfg).statuses s t = some u') (hq' : request cfg u'.call = some q')
    (has : u'.phase.has p) (task : s.tasks u = some T) (hq : request cfg T.call = some q)
    (fits : Matches q p) (open_ : T.code.isDone = false) :
    ((discipline cfg).phase T).following p := by
  have hu := (discipline cfg).statuses_of_task task
  have stored' := stored_of_has (inv.good owner hq') has
  have same : q.key = q'.key := fits.key.symm.trans stored'.fits.key
  have stored : Stored s.world q p :=
    ⟨by rw [same]; exact stored'.keyed, stored'.found, fits⟩
  have good := inv.good hu hq
  have follows := kept u T task
  obtain ⟨data, hc⟩ := inv.creates hu
  obtain ⟨c, code, trace⟩ := T
  obtain rfl : c = .create data := hc
  have lost (hw : ((discipline cfg).phase ⟨.create data, code, trace⟩).won) : False :=
    ne (inv.unique hu owner hq hq' same hw (won_of_has has))
  replace good : Good s.world q ((discipline cfg).phase ⟨.create data, code, trace⟩) := good
  generalize (discipline cfg).phase ⟨.create data, code, trace⟩ = g at *
  cases code with
  | done a => cases open_
  | perform e k =>
    cases g with
    | fresh => trivial
    | left => trivial
    | replaying id =>
      obtain ⟨p', rfl, stored''⟩ := good.replaying rfl
      obtain rfl := stored''.unique stored rfl
      rfl
    | replayed found =>
      obtain ⟨p', rfl, stored''⟩ := good.replayed rfl
      obtain rfl := stored''.unique stored rfl
      rfl
    | refused =>
      have hok := follows.1
      cases e with
      | store e => cases e <;> first | cases hok.1 | exact hok.elim
      | _ => exact hok.elim
    | released =>
      have hok := follows.1
      cases e with
      | store e => cases e <;> first | cases hok.1 | exact hok.elim
      | _ => exact hok.elim
    | _ => exact (lost trivial).elim

end Outcome

section Outcomes

variable {cfg : Config} {profile : Profile} (direct : cfg.coordinator = .direct)
  (memory : profile.coordinator = .memory) (storage : profile.storage = .memory)

include direct memory storage

/-- Once a call has saved a payment, every other call with its data that is under way or comes
later returns that payment, so it agrees with the call that saved it exactly when the payment
succeeded. -/
theorem replay_outcome (circuit : CircuitBreaker) (concurrency : List (Provider × ℕ))
    {s s' : ServiceState} {t : Tid} {p : Payment}
    (h : Reaches (system cfg profile) Creates (.empty (.initial circuit concurrency)) s)
    (owner : SavedBy s t p) (later : Reaches (system cfg profile) Creates s s') :
    Replays cfg profile p t s s' := by
  have M := maintains direct memory storage
  have kept₀ := Maintains.kept_empty (τ := Tid) (discipline cfg) (World.initial circuit concurrency)
  have inv₀ := inv_initial cfg circuit concurrency
  obtain ⟨kept, inv⟩ := M.reaches kept₀ inv₀ h
  obtain ⟨T, task, saved⟩ := owner
  have has := has_of_savedBy direct memory storage kept₀ inv₀ nofun h task saved
  obtain ⟨data, hc⟩ := inv.creates ((discipline cfg).statuses_of_task task)
  have hq : request cfg T.call = some (requestOf cfg data) := by
    rw [show T.call = _ from hc]
    rfl
  have stored := stored_of_has (inv.good ((discipline cfg).statuses_of_task task) hq) has
  have MS := (stored_extends cfg storage memory p.id p).maintains M fun _ _ h => h
  obtain ⟨kept', inv', found'⟩ := MS.reaches kept ⟨inv, stored.found⟩ later
  have attended : Owner.NobodyForgotten Effect.coordinator (fun w => w.process.idempotency) s' := by
    obtain ⟨keptO, invO⟩ := (Owner.maintains direct memory).reaches_empty
      (Owner.inv_initial cfg circuit concurrency) (h.trans later)
    exact Owner.forgotten_of_inv keptO invO
  refine ⟨?_, ?_, ?_⟩
  · intro u data' a b ne hcall fits opened ha hb going
    have first : Follows cfg p u ((discipline cfg).statuses s) := by
      intro x q hx hq' fits'
      obtain ⟨U, task', rfl⟩ := (discipline cfg).statuses_some hx
      exact following_of_open kept inv ne ((discipline cfg).statuses_of_task task) hq has task'
        hq' fits' (opened U task')
    obtain ⟨-, -, follows⟩ := ((follows_extends memory storage p u).maintains MS
      fun _ _ h => h).reaches kept ⟨⟨inv, stored.found⟩, first⟩ later
    obtain ⟨U, task', called⟩ := Option.map_eq_some_iff.mp hcall
    have following := follows _ (requestOf cfg data')
      ((discipline cfg).statuses_of_task task')
      (by rw [show ((discipline cfg).status U).call = _ from called]; rfl) fits
    have hb' := result_post kept' task' called hb
    obtain rfl := following_result following hb' going
    obtain ⟨T', owner', call, trace⟩ := later.task task
    obtain ⟨x, hx, hs⟩ := saved
    have has' := has_of_savedBy direct memory storage kept₀ inv₀ nofun (h.trans later) owner'
      ⟨x, trace.subset hx, hs⟩
    exact ⟨rfl, owner_agrees has' (result_post kept' owner' (call.trans hc) ha)⟩
  · intro u data' idle new fits
    exact create_replays memory storage inv' idle found' fits direct new
  · intro u data' idle hcall reached fits
    obtain ⟨U, task', called⟩ := Option.map_eq_some_iff.mp hcall
    exact waiting_replays memory storage kept' inv' idle found' fits task' called reached attended

end Outcomes

section Scenarios

open Scenario

/-- The request of a stored payment is made again. -/
def replay : List ServiceLabel := [.call 1 (.create (card "a")), .enter 1 .go, .enter 1 .go]

/-- The only provider fails, and the payment is saved as failed. Then it is replayed. -/
def failedReplay : List ServiceLabel := failedRun 0 0 1 ++ replay

/-- The call that saved the payment raises the provider's error, its replay returns the payment. -/
theorem failed_payment_returned :
    ∃ s ∈ run (system (service ["stripe"] 1) {}) failedReplay (.empty (.initial fragile [])),
    s.result 0 = some (.error (.provider unavailable)) ∧
    ∃ p, s.world.store.payments 0 = some p ∧ p.status = .failed ∧
      s.result 1 = some (.ok (.payment p)) ∧
      ¬ SameOutcome (.error (.provider unavailable)) (.ok (.payment p)) := by
  have h : ∃ s ∈ run (system (service ["stripe"] 1) {}) failedReplay
      (.empty (.initial fragile [])), s.result 0 = some (.error (.provider unavailable)) ∧
      (s.world.store.payments 0).map Payment.status = some .failed ∧
      s.result 1 = (s.world.store.payments 0).map fun p => .ok (.payment p) := by
    decide +kernel
  obtain ⟨s, moved, raised, status, returned⟩ := h
  obtain ⟨p, found, failed⟩ := Option.map_eq_some_iff.mp status
  refine ⟨s, moved, raised, p, found, failed, ?_, id⟩
  rw [returned, found]
  rfl

theorem replay_outcome_paid : ∃ (s s' : ServiceState) (p : Payment), p.status = .succeeded ∧
    s.tasks 1 = none ∧ s'.result 1 = some (.ok (.payment p)) ∧
    Replays (service ["stripe"] 1) {} p 0 s s' := by
  have h : ∃ s ∈ run (system (service ["stripe"] 1) {}) (paidRun 0 0 "a")
      (.empty (.initial fragile [])), ∃ s' ∈ run (system (service ["stripe"] 1) {}) replay s,
      ∃ T ∈ s.tasks 0, ∃ x ∈ T.trace, (savedPayment x).map Payment.status = some .succeeded ∧
      (s.tasks 1).isNone = true ∧
      s'.result 1 = (savedPayment x).map fun p => .ok (.payment p) := by
    decide +kernel
  obtain ⟨s, moved, s', replayed, T, task, x, hx, status, new, returned⟩ := h
  obtain ⟨p, saved, succeeded⟩ := Option.map_eq_some_iff.mp status
  have meets : ∀ l ∈ paidRun 0 0 "a" ++ replay, ∀ s, Creates s l := by
    simp [replay, paidRun, Scenario.create, ask, start, returns, Scenario.recordSuccess,
      Scenario.finish, event, Creates]
  have before := run_reaches _ (throughout_of_forall _
    (fun l hl => meets l (List.mem_append_left _ hl)) _) moved
  have after := run_reaches _ (throughout_of_forall _
    (fun l hl => meets l (List.mem_append_right _ hl)) _) replayed
  exact ⟨s, s', p, succeeded, Option.isNone_iff_eq_none.mp new, by rw [returned, saved]; rfl,
    replay_outcome rfl rfl rfl fragile [] before ⟨T, task, x, hx, saved⟩ after⟩

end Scenarios

end PySwitch.Claim
