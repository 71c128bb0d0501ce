import PySwitch.ClaimRuns
import PySwitch.ProviderCalls

namespace PySwitch.Claim

open Async Service MemoryIdempotencyCoordinator

def Stage.started : Stage → Prop
  | .drafted _ => True
  | .charged _ => True
  | .stored _ => True
  | .completed _ => True
  | .released => True
  | _ => False

/-- A provider has returned a result to the call. -/
def Stage.paid : Stage → Prop
  | .charged _ => True
  | .stored _ => True
  | .completed _ => True
  | _ => False

def callKey : Call → Option RecordKey
  | .create data => some data.key
  | _ => none

/-- A provider call that returned a result to a call of `create` for the key. -/
def charges (call : Tid → Option Call) (key : RecordKey) : Happening → Bool
  | .paymentEnded t _ _ (.ok _) => (call t).bind callKey = some key
  | _ => false

def calls (st : Statuses) (t : Tid) : Option Call := (st t).map Status.call

structure Counted (w : World) (st : Statuses) : Prop where
  once : ∀ key, (w.calls.filter (charges (calls st) key)).length ≤ 1
  paid : ∀ {t p id r}, .paymentEnded t p id (.ok r) ∈ w.calls → ∃ u, st t = some u ∧ u.phase.paid
  started : ∀ {t p id}, .paymentStarted t p id ∈ w.calls → ∃ u, st t = some u ∧ u.phase.started

theorem won_of_paid {g : Stage} (h : g.paid) : g.won := by
  cases g <;> trivial

theorem next_started {g : Stage} {e : Effect} (r : e.Reply) (h : g.started) : (next g e r).started := by
  unfold next
  split <;> trivial

theorem next_paid {g : Stage} {e : Effect} (r : e.Reply) (h : g.paid) : (next g e r).paid := by
  unfold next
  split <;> trivial

section Charges

variable {w : World} {st : Statuses} {t : Tid} {u : Status Call Stage}

theorem calls_update (same : calls st t = some u.call) :
    calls (Function.update st t (some u)) = calls st := by
  funext t'
  by_cases ht : t' = t
  · subst t'
    simp only [calls, Function.update_self, Option.map_some]
    exact same.symm
  · simp only [calls, Function.update_of_ne ht]

theorem charges_new (counted : Counted w st) (new : st t = none) (key : RecordKey) :
    w.calls.filter (charges (calls (Function.update st t (some u))) key) =
      w.calls.filter (charges (calls st) key) := by
  apply List.filter_congr
  intro x hx
  unfold charges
  split
  · rename_i t' p id r
    obtain ⟨u', hu', -⟩ := counted.paid hx
    have ht : t' ≠ t := by
      rintro rfl
      cases new.symm.trans hu'
    exact decide_eq_decide.mpr (by simp only [calls, Function.update_of_ne ht])
  · rfl

end Charges

section Extends

variable {cfg : Config} {profile : Profile}

theorem counted_call {w : World} {st : Statuses} {t : Tid} {u : Status Call Stage}
    (counted : Counted w st) (new : st t = none) : Counted w (Function.update st t (some u)) := by
  have old {t' : Tid} {x : Status Call Stage} (h : st t' = some x) :
      Function.update st t (some u) t' = some x := by
    rw [Function.update_of_ne]
    · exact h
    · rintro rfl
      cases new.symm.trans h
  exact {
    once := fun key => by
      rw [charges_new counted new]
      exact counted.once key
    paid := fun hx => by
      obtain ⟨x, hu, hp⟩ := counted.paid hx
      exact ⟨x, old hu, hp⟩
    started := fun hx => by
      obtain ⟨x, hu, hp⟩ := counted.started hx
      exact ⟨x, old hu, hp⟩ }

variable {s : ServiceState} {l : ServiceLabel} {t : Tid} {data : PaymentInput} {g : Stage}
  {e : Effect} {r : e.Reply} {w : World} {b : Bool}

/-- A result is given to a call whose key nobody has been paid for. -/
theorem none_charged (inv : Inv cfg s.world s.running ((discipline cfg).statuses s))
    (counted : Counted s.world ((discipline cfg).statuses s))
    (ht : (discipline cfg).statuses s t = some ⟨.create data, g, false⟩) (holds : g.holding)
    (unpaid : ¬ g.paid) :
    s.world.calls.filter (charges (calls ((discipline cfg).statuses s)) data.key) = [] := by
  rw [List.filter_eq_nil_iff]
  intro x hx hc
  unfold charges at hc
  split at hc
  · rename_i t' p id r
    obtain ⟨u, hu, paid⟩ := counted.paid hx
    obtain ⟨data', hcall⟩ := inv.creates hu
    have hkey : data'.key = data.key := by
      simpa [calls, hu, hcall, callKey] using hc
    have hq : request cfg u.call = some (requestOf cfg data') := by rw [hcall]; rfl
    obtain rfl := inv.unique hu ht hq rfl hkey (won_of_paid paid) (won_of_holding holds)
    obtain rfl := Option.some.inj (hu.symm.trans ht)
    exact unpaid paid
  · cases hc

theorem counted_reply (inv : Inv cfg s.world s.running ((discipline cfg).statuses s))
    (counted : Counted s.world ((discipline cfg).statuses s))
    (ht : (discipline cfg).statuses s t = some ⟨.create data, g, false⟩)
    (hok : ok (requestOf cfg data) g e)
    (h : Delivered (system cfg profile) s l t e (.reply r w)) :
    Counted w (Function.update ((discipline cfg).statuses s) t
      (some ⟨.create data, next g e r, b⟩)) := by
  have same : calls ((discipline cfg).statuses s) t = some (.create data) := by simp [calls, ht]
  have self := Function.update_self t (some (⟨.create data, next g e r, b⟩ : Status Call Stage))
    ((discipline cfg).statuses s)
  have keeps {J : Stage → Prop} (step : J g → J (next g e r)) {u : Tid}
      (old : ∃ x, (discipline cfg).statuses s u = some x ∧ J x.phase) :
      ∃ x, Function.update ((discipline cfg).statuses s) t
        (some ⟨.create data, next g e r, b⟩) u = some x ∧ J x.phase := by
    obtain ⟨x, hx, hJ⟩ := old
    by_cases heq : u = t
    · subst u
      obtain rfl := Option.some.inj (ht.symm.trans hx)
      exact ⟨_, self, step hJ⟩
    · exact ⟨x, by rwa [Function.update_of_ne heq], hJ⟩
  have paid {u : Tid} := keeps (u := u) (J := Stage.paid) (next_paid r)
  have started {u : Tid} := keeps (u := u) (J := Stage.started) (next_started r)
  have log := reply_calls h
  generalize hc : w.calls = after at log
  constructor
  · intro key
    rw [calls_update same, hc]
    cases log with
    | started => simpa [charges] using counted.once key
    | other => exact counted.once key
    | @ended p paymentId r =>
      cases r with
      | error x => simpa [charges] using counted.once key
      | ok result =>
        by_cases hk : data.key = key
        · subst key
          have unpaid : g.holding ∧ ¬ g.paid := by
            cases g <;> first | exact ⟨trivial, id⟩ | exact hok.elim
          have := none_charged inv counted ht unpaid.1 unpaid.2
          simp [charges, calls, ht, callKey, this]
        · have := counted.once key
          simpa [charges, calls, ht, callKey, hk] using this
  · intro t' p id result hx
    rw [hc] at hx
    cases log with
    | started =>
      obtain hx | hx := List.mem_cons.mp hx
      · cases hx
      · exact paid (counted.paid hx)
    | other => exact paid (counted.paid hx)
    | ended =>
      obtain hx | hx := List.mem_cons.mp hx
      · cases hx
        refine ⟨_, self, ?_⟩
        cases g <;> trivial
      · exact paid (counted.paid hx)
  · intro t' p id hx
    rw [hc] at hx
    cases log with
    | started =>
      obtain hx | hx := List.mem_cons.mp hx
      · cases hx
        refine ⟨_, self, ?_⟩
        cases g <;> trivial
      · exact started (counted.started hx)
    | other => exact started (counted.started hx)
    | ended =>
      obtain hx | hx := List.mem_cons.mp hx
      · cases hx
      · exact started (counted.started hx)

theorem Counted.of_calls {w w' : World} {st : Statuses} (h : w'.calls = w.calls)
    (counted : Counted w st) : Counted w' st :=
  ⟨fun key => h ▸ counted.once key, fun hx => counted.paid (h ▸ hx),
    fun hx => counted.started (h ▸ hx)⟩

theorem counted_extends (cfg : Config) (profile : Profile) :
    Extends (system cfg profile) Creates (discipline cfg) (Inv cfg)
      fun w _ st => Counted w st where
  call := fun _ counted new _ => counted_call counted new
  reply := fun _ inv counted ht hok h _ _ _ _ => by
    obtain ⟨data, rfl⟩ := inv.creates ht
    exact counted_reply inv counted ht hok h
  wait := fun _ _ counted _ _ h => counted.of_calls (wait_calls h)
  outside := fun _ counted h => counted.of_calls (outside_calls h)

/-- A step of a call leaves every stored payment as it is. -/
theorem payment_kept (storage : profile.storage = .memory)
    (inv : Inv cfg s.world s.running ((discipline cfg).statuses s))
    (ht : (discipline cfg).statuses s t = some ⟨.create data, g, false⟩)
    (hok : ok (requestOf cfg data) g e)
    (h : Delivered (system cfg profile) s l t e (.reply r w)) {id : Uuid} {p : Payment}
    (found : s.world.store.payments id = some p) : w.store.payments id = some p := by
  have saves {p' : Payment} (hd : g.draft = some p'.id) :
      Function.update s.world.store.payments p'.id (some p') id = some p := by
    rw [Function.update_of_ne]
    · exact found
    · rintro rfl
      cases found.symm.trans ((good_self inv ht).draft hd).2
  cases e with
  | store e =>
    obtain ⟨-, rfl⟩ := store_reply storage h
    cases e with
    | save p' =>
      have hd : g.draft = some p'.id := by cases g <;> exact hok.1
      exact saves hd
    | saveWithEvents p' events =>
      have hd : g.draft = some p'.id := by cases g <;> exact hok.1
      exact saves hd
    | _ => exact found
  | _ => rwa [(reply_touches h).store fun _ => nofun]

variable (cfg) in
theorem stored_extends (storage : profile.storage = .memory)
    (memory : profile.coordinator = .memory) (id : Uuid) (p : Payment) :
    Extends (system cfg profile) Creates (discipline cfg) (Inv cfg)
      fun w _ _ => w.store.payments id = some p where
  call := fun _ found _ _ => found
  reply := fun _ inv found ht hok h _ _ _ _ => by
    obtain ⟨data, rfl⟩ := inv.creates ht
    exact payment_kept storage inv ht hok h found
  wait := fun _ _ found _ _ h => by
    rwa [(wait_same storage memory h).payments]
  outside := fun _ found h => by
    rwa [(outside_same h).payments]

/-- A call that has asked for nothing yet, or has been turned away. -/
def Stage.bare : Stage → Prop
  | .fresh => True
  | .refused => True
  | .left => True
  | _ => False

/-- With another request's payment stored under its key, a call has nothing. -/
theorem bare_or_released {w : World} {q q' : Request} {g : Stage} {p : Payment} (good : Good w q g)
    (stored : Stored w q' p) (key : q.key = q'.key) (differs : q.fingerprint ≠ q'.fingerprint) :
    g.bare ∨ g = .released := by
  have conflict {p' : Payment} (h : Stored w q p') : False := by
    obtain rfl := stored.unique h key.symm
    exact differs (h.fits.fingerprint.symm.trans stored.fits.fingerprint)
  have keyed : w.store.keys q.key ≠ none := by
    rw [key, stored.keyed]
    exact Option.some_ne_none _
  cases g with
  | fresh => exact .inl trivial
  | refused => exact .inl trivial
  | left => exact .inl trivial
  | released => exact .inr rfl
  | replaying id =>
    obtain ⟨p', -, h⟩ := good.replaying rfl
    exact (conflict h).elim
  | replayed found =>
    obtain ⟨p', -, h⟩ := good.replayed rfl
    exact (conflict h).elim
  | stored p' => exact (conflict (good.stored rfl)).elim
  | completed p' => exact (conflict (good.completed rfl).1).elim
  | _ => exact absurd (good.unkeyed trivial fun _ => nofun) keyed

theorem next_bare {q : Request} {g : Stage} (r : e.Reply) (hok : ok q g e) (h : g.bare) :
    ∃ key fingerprint, e = .coordinator (.acquire key fingerprint) ∧
      next g e r ≠ .released := by
  cases g with
  | fresh =>
    cases e with
    | coordinator e =>
      cases e with
      | acquire key fingerprint =>
        refine ⟨key, fingerprint, rfl, ?_⟩
        simp only [next, decided]
        split <;> nofun
      | _ => exact hok.elim
    | store e => cases e <;> first | cases hok.1 | exact hok.elim
    | _ => exact hok.elim
  | refused =>
    cases e with
    | store e => cases e <;> first | cases hok.1 | exact hok.elim
    | _ => exact hok.elim
  | left =>
    cases e with
    | store e => cases e <;> first | cases hok.1 | exact hok.elim
    | _ => exact hok.elim
  | _ => exact h.elim

/-- A call with other data has nothing while the payment of its key is stored. -/
def Excluded (cfg : Config) (p : Payment) (t : Tid) (st : Statuses) : Prop :=
  ∀ u q, st t = some u → request cfg u.call = some q → q.key = p.key →
    q.fingerprint ≠ p.requestFingerprint → u.phase.bare

theorem excluded_extends (cfg : Config) (profile : Profile) (p : Payment) (t : Tid) :
    Extends (system cfg profile) Creates (discipline cfg)
      (fun w v st => Inv cfg w v st ∧ w.store.payments p.id = some p)
      fun _ _ st => Excluded cfg p t st where
  call := fun _ excluded new _ u q hu hq hk hf => by
    obtain ⟨-, rfl⟩ | ⟨-, hu⟩ := update_cases hu
    · trivial
    · exact excluded u q hu hq hk hf
  reply := fun {s l t' c g e r w} _ base excluded ht hok h b v _ base' u q hu hq hk hf => by
    obtain ⟨data, rfl⟩ := base.1.creates ht
    obtain ⟨rfl, rfl⟩ | ⟨-, hu⟩ := update_cases hu
    · have bare := excluded _ q ht hq hk hf
      obtain ⟨-, -, -, open_⟩ := next_bare r hok bare
      have good := base'.1.good (Function.update_self ..) hq
      have keyed := (base'.1.books.keyed base'.2).2.1
      have stored : Stored w ⟨p.key, p.requestFingerprint⟩ p := ⟨keyed, base'.2, rfl, rfl⟩
      obtain bare' | released := bare_or_released good stored hk hf
      · exact bare'
      · exact absurd released open_
    · exact excluded u q hu hq hk hf
  wait := fun _ _ excluded _ _ _ => excluded
  outside := fun _ excluded _ => excluded

end Extends

def callOf (s : ServiceState) (t : Tid) : Option Call := (s.tasks t).map Task.call

/-- What one key gets: at most one charge and one payment, and every call that returns returns
that payment. -/
structure Once (cfg : Config) (s : ServiceState) : Prop where
  charged : ∀ key, (s.world.log.filter (charges (callOf s) key)).length ≤ 1
  saved : ∀ {id id' p p'}, s.world.store.payments id = some p →
    s.world.store.payments id' = some p' → p.key = p'.key → p = p'
  returned : ∀ {t data p}, callOf s t = some (.create data) →
    s.result t = some (.ok (.payment p)) →
    s.world.store.payments p.id = some p ∧ Matches (requestOf cfg data) p

/-- What a payment that is stored in one state means for a later state. -/
structure Settled (cfg : Config) (profile : Profile) (p : Payment) (s s' : ServiceState) : Prop where
  stored : s'.world.store.payments p.id = some p
  refused : ∀ {t data}, callOf s' t = some (.create data) → data.key = p.key →
    requestFingerprint cfg.sha256 data ≠ p.requestFingerprint →
    (∀ T, s.tasks t = some T → T.code.isDone = false) →
    (∀ provider id, .paymentStarted t provider id ∉ s'.world.log) ∧
      ∀ r, s'.result t = some r → r = .error conflict ∨ r = .error .cancelled
  raises : ∀ {t data}, s'.running = none → s'.tasks t = none → data.key = p.key →
    requestFingerprint cfg.sha256 data ≠ p.requestFingerprint →
    ∃ s'', run (system cfg profile) [.call t (.create data), .enter t .go] s' = some s'' ∧
      s''.result t = some (.error conflict) ∧ s''.world = s'.world

section Reached

variable {cfg : Config} {profile : Profile} {s : ServiceState}

theorem calls_statuses : calls ((discipline cfg).statuses s) = callOf s := by
  funext t
  simp only [calls, callOf, Discipline.statuses, Option.map_map]
  rfl

theorem once_of_inv (kept : (discipline cfg).Kept s)
    (inv : Inv cfg s.world s.running ((discipline cfg).statuses s))
    (counted : Counted s.world ((discipline cfg).statuses s)) : Once cfg s where
  charged := fun key => by
    have once := counted.once key
    have only_payments (x : Happening) (hx : charges (callOf s) key x = true) :
        x.ofPayment = true := by
      cases x <;> first | rfl | cases hx
    rw [calls_statuses, World.calls, List.filter_filter] at once
    rwa [List.filter_congr fun x _ => show _ = (charges (callOf s) key x && x.ofPayment) from ?_]
    cases hc : charges (callOf s) key x with
    | false => rfl
    | true => rw [only_payments x hc]; rfl
  saved := fun hp hp' hk => by
    obtain ⟨hid, keyed, -⟩ := inv.books.keyed hp
    obtain ⟨hid', keyed', -⟩ := inv.books.keyed hp'
    rw [hk, keyed'] at keyed
    obtain rfl := Option.some.inj keyed
    exact Option.some.inj (hp.symm.trans hp')
  returned := fun {t data p} hcall hr => by
    obtain ⟨T, task, result⟩ := Option.bind_eq_some_iff.mp hr
    obtain ⟨T', task', called⟩ := Option.map_eq_some_iff.mp hcall
    obtain rfl := Option.some.inj (task.symm.trans task')
    have follows := kept t T task
    have good : Good s.world (requestOf cfg data) ((discipline cfg).phase T) :=
      inv.good ((discipline cfg).statuses_of_task task)
        (by rw [show ((discipline cfg).status T).call = _ from called]; rfl)
    obtain ⟨c, code, trace⟩ := T
    obtain rfl : c = .create data := called
    cases code with
    | perform e k => cases result
    | done a =>
      obtain rfl := Option.some.inj result
      obtain ⟨hg, -⟩ | hg := follows
      · have stored := (good.completed hg).1
        exact ⟨stored.found, stored.fits⟩
      · obtain ⟨p', hp, stored⟩ := good.replayed hg
        cases hp
        exact ⟨stored.found, stored.fits⟩

/-- The record of a key agrees with the payment stored under it. -/
theorem record_of_stored {st : Statuses} {w : World} {v : Option Tid} (inv : Inv cfg w v st)
    {p : Payment} (found : w.store.payments p.id = some p) :
    ∃ r, records w p.key = some r ∧ r.fingerprint = p.requestFingerprint := by
  have keyed := (inv.books.keyed found).2.1
  have stored : Stored w ⟨p.key, p.requestFingerprint⟩ p := ⟨keyed, found, rfl, rfl⟩
  cases hr : records w p.key with
  | none => cases (inv.books.vacant hr).symm.trans keyed
  | some r =>
    refine ⟨r, rfl, ?_⟩
    cases hc : r.completed with
    | true =>
      obtain ⟨p', -, stored'⟩ := inv.books.completed hr hc
      obtain rfl := stored.unique stored' rfl
      exact stored'.fits.fingerprint.symm
    | false =>
      obtain ⟨t, u, q, hu, hq, hk, holds⟩ := inv.held hr hc
      have good := inv.good hu hq
      have same : some r = some (⟨q.fingerprint, none, false⟩ : IdempotencyRecord) := by
        rw [← hr, ← hk]
        exact good.held holds
      obtain rfl := Option.some.inj same
      by_cases hs : ∃ p', u.phase = .stored p'
      · obtain ⟨p', hs⟩ := hs
        have stored' := good.stored hs
        obtain rfl := stored.unique stored' hk.symm
        exact stored'.fits.fingerprint.symm
      · have unkeyed := good.unkeyed holds fun p' hp => hs ⟨p', hp⟩
        rw [hk, keyed] at unkeyed
        cases unkeyed

theorem create_asks (direct : cfg.coordinator = .direct) (data : PaymentInput) :
    ∃ k, ((Call.create data).run cfg).start {} =
        .perform (.coordinator (.acquire data.key (requestFingerprint cfg.sha256 data))) k ∧
      k (.ok ⟨.conflict, none⟩) = .done (.error conflict) := by
  obtain ⟨providers, policy, coordinator, outbox, sha256⟩ := cfg
  obtain rfl : coordinator = .direct := direct
  exact ⟨_, rfl, rfl⟩

/-- A new call whose data differ from the recorded ones is turned away at once. -/
theorem create_conflicts (direct : cfg.coordinator = .direct)
    (memory : profile.coordinator = .memory) {t : Tid} {data : PaymentInput}
    {r : IdempotencyRecord} (idle : s.running = none) (new : s.tasks t = none)
    (found : records s.world data.key = some r)
    (differs : r.fingerprint ≠ requestFingerprint cfg.sha256 data) :
    ∃ s', run (system cfg profile) [.call t (.create data), .enter t .go] s = some s' ∧
      s'.result t = some (.error conflict) ∧ s'.world = s.world := by
  obtain ⟨k, asks, answered⟩ := create_asks direct data
  have refused : Effect.enter profile t
      (.coordinator (.acquire data.key (requestFingerprint cfg.sha256 data))) .go s.world =
      .reply (.ok ⟨.conflict, none⟩) s.world := by
    have found' : s.world.process.idempotency.records data.key = some r := found
    simp only [Effect.enter, memory, MemoryIdempotencyCoordinator.enter,
      MemoryIdempotencyCoordinator.acquire, found', if_pos differs]
    rfl
  have called := step_call (system cfg profile) (c := .create data) idle new
  have running := put_running s t (T := Async.Task.spawn (.create data)
    ((system cfg profile).program (.create data))) s.world asks
  have entered := step_enter (system cfg profile) running (put_task ..) asks refused
  exact ⟨_, run_cons _ called (run_cons _ entered rfl), put_result _ _ _ answered, rfl⟩

theorem turned_away {data : PaymentInput} {g : Stage} {a : Except Exn Result} (bare : g.bare)
    (h : (discipline cfg).post (.create data) a g) : a = .error conflict ∨ a = .error .cancelled := by
  cases a with
  | error x =>
    obtain ⟨-, rfl⟩ | ⟨-, rfl⟩ | rfl | rfl | ⟨p, rfl, -⟩ := h
    · exact .inl rfl
    · exact .inr rfl
    · exact bare.elim
    · exact bare.elim
    · exact bare.elim
  | ok result =>
    cases result with
    | payment p => obtain ⟨rfl, -⟩ | rfl := h <;> exact bare.elim
    | _ => exact h.elim

theorem not_started_of_bare {g : Stage} (bare : g.bare) : ¬ g.started := by
  cases g <;> first | exact id | exact bare.elim

end Reached

section Runs

variable {cfg : Config} {profile : Profile} (direct : cfg.coordinator = .direct)
  (memory : profile.coordinator = .memory) (storage : profile.storage = .memory)

include direct memory storage

theorem settled {s s' : ServiceState} {p : Payment} (kept : (discipline cfg).Kept s)
    (inv : Inv cfg s.world s.running ((discipline cfg).statuses s))
    (found : s.world.store.payments p.id = some p)
    (h : Reaches (system cfg profile) Creates s s') (kept' : (discipline cfg).Kept s')
    (inv' : Inv cfg s'.world s'.running ((discipline cfg).statuses s'))
    (counted : Counted s'.world ((discipline cfg).statuses s')) : Settled cfg profile p s s' := by
  have M := (stored_extends cfg storage memory p.id p).maintains
    (maintains direct memory storage) fun _ _ h => h
  obtain ⟨-, -, found'⟩ := M.reaches kept ⟨inv, found⟩ h
  refine ⟨found', ?_, ?_⟩
  · intro t data hcall hk hf opened
    obtain ⟨T, task, called⟩ := Option.map_eq_some_iff.mp hcall
    have first : Excluded cfg p t ((discipline cfg).statuses s) := by
      intro u q hu hq hk hf
      obtain ⟨T, task, rfl⟩ := (discipline cfg).statuses_some hu
      have stored : Stored s.world ⟨p.key, p.requestFingerprint⟩ p :=
        ⟨(inv.books.keyed found).2.1, found, rfl, rfl⟩
      obtain bare | released := bare_or_released (inv.good hu hq) stored hk hf
      · exact bare
      · have follows := kept t T task
        obtain ⟨data', hc⟩ := inv.creates hu
        obtain ⟨c, code, trace⟩ := T
        obtain rfl : c = .create data' := hc
        cases code with
        | done a => cases opened _ task
        | perform e k =>
          replace released : (discipline cfg).phase ⟨.create data', .perform e k, trace⟩ =
            .released := released
          rw [released] at follows
          have hok := follows.1
          cases e with
          | store e => cases e <;> first | cases hok.1 | exact hok.elim
          | _ => exact hok.elim
    obtain ⟨-, -, excluded⟩ := ((excluded_extends cfg profile p t).maintains M
      fun _ _ h => h).reaches kept ⟨⟨inv, found⟩, first⟩ h
    have hu := (discipline cfg).statuses_of_task task
    have bare := excluded _ (requestOf cfg data) hu
      (by rw [show ((discipline cfg).status T).call = _ from called]; rfl) hk hf
    constructor
    · intro provider id hx
      obtain ⟨u, hu', started⟩ := counted.started ((World.mem_calls rfl).mpr hx)
      obtain rfl := Option.some.inj (hu.symm.trans hu')
      exact not_started_of_bare bare started
    · intro r hr
      obtain ⟨T', task', result⟩ := Option.bind_eq_some_iff.mp hr
      obtain rfl := Option.some.inj (task.symm.trans task')
      have follows := kept' t T task
      obtain ⟨c, code, trace⟩ := T
      obtain rfl : c = .create data := called
      cases code with
      | perform e k => cases result
      | done a =>
        obtain rfl := Option.some.inj result
        exact turned_away (g := (discipline cfg).phase _) bare follows
  · intro t data idle new hk hf
    obtain ⟨r, hr, fingerprint⟩ := record_of_stored inv' found'
    exact create_conflicts direct memory idle new (hk ▸ hr) fun heq => hf (heq.symm.trans fingerprint)

/-- Payments of one process are created exactly once for each key, whatever the providers do and
whoever is cancelled: at most one provider call returns a result, at most one payment is saved,
whoever returns returns it, and from then on other data are turned away. -/
theorem exactly_once (circuit : CircuitBreaker) (concurrency : List (Provider × ℕ))
    {s : ServiceState}
    (h : Reaches (system cfg profile) Creates (.empty (.initial circuit concurrency)) s) :
    Once cfg s ∧ ∀ {id p}, s.world.store.payments id = some p → ∀ {s'},
      Reaches (system cfg profile) Creates s s' → Settled cfg profile p s s' := by
  have M := (counted_extends cfg profile).maintains (maintains direct memory storage) fun _ _ h => h
  have counted₀ : Counted (.initial circuit concurrency) fun _ => none :=
    ⟨fun _ => Nat.zero_le _, nofun, nofun⟩
  obtain ⟨kept, inv, counted⟩ := M.reaches_empty ⟨inv_initial cfg circuit concurrency, counted₀⟩ h
  refine ⟨once_of_inv kept inv counted, ?_⟩
  intro id p found s' later
  obtain ⟨rfl, -, -⟩ := inv.books.keyed found
  obtain ⟨kept', inv', counted'⟩ := M.reaches kept ⟨inv, counted⟩ later
  exact settled direct memory storage kept inv found later kept' inv' counted'

end Runs

section Scenarios

open Scenario

/-- The same request is made a second time while the provider is asked to pay. -/
def joinedRun : List ServiceLabel :=
  create 0 0 (card "a") 1 ++ ask 0 0 ++ start 0 ++ [.call 1 (.create (card "a")), .enter 1 .go] ++
  returns 0 "reference" ++ recordSuccess 0 0 ++ finish 0 0

/-- The second call goes on, and the key is used for another amount. -/
def conflictingRun : List ServiceLabel :=
  [.resume 1 .go, .enter 1 .go, .call 2 (.create { card "a" with amount := 200 }), .enter 2 .go]

theorem exactly_once_paid : ∃ (s s' : ServiceState) (p : Payment),
    s.world.store.payments 0 = some p ∧ s'.result 1 = some (.ok (.payment p)) ∧
    s'.result 2 = some (.error conflict) ∧ Once (service ["stripe"] 1) s' ∧
    Settled (service ["stripe"] 1) {} p s s' := by
  have h : ∃ s ∈ run (system (service ["stripe"] 1) {}) joinedRun (.empty (.initial fragile [])),
      ∃ s' ∈ run (system (service ["stripe"] 1) {}) conflictingRun s,
      (s.world.store.payments 0).isSome ∧
      s'.result 1 = (s.world.store.payments 0).map (fun p => .ok (.payment p)) ∧
      s'.result 2 = some (.error conflict) := by
    decide +kernel
  obtain ⟨s, first, s', second, found, joined, refused⟩ := h
  obtain ⟨p, found⟩ := Option.isSome_iff_exists.mp found
  have meets : ∀ l ∈ joinedRun ++ conflictingRun, ∀ s, Creates s l := by
    simp [joinedRun, conflictingRun, Scenario.create, ask, start, returns, Scenario.recordSuccess,
      Scenario.finish, event, Creates]
  have before := run_reaches _ (throughout_of_forall _
    (fun l hl => meets l (List.mem_append_left _ hl)) _) first
  have after := run_reaches _ (throughout_of_forall _
    (fun l hl => meets l (List.mem_append_right _ hl)) _) second
  exact ⟨s, s', p, found, by rw [joined, found]; rfl, refused,
    (@exactly_once (service ["stripe"] 1) {} rfl rfl rfl fragile [] s' (before.trans after)).1,
    (@exactly_once (service ["stripe"] 1) {} rfl rfl rfl fragile [] s before).2 found after⟩

end Scenarios

end PySwitch.Claim
