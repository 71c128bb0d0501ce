import PySwitch.ClaimRuns
import PySwitch.CoordinatorCalls
import PySwitch.OwnerProtocol

namespace PySwitch.Owner

open Async Program Service MemoryIdempotencyCoordinator
open Claim (Request requestOf request records Creates)

def free : Protocol Effect Effect.Reply Stage :=
  ⟨fun _ _ => True, fun _ _ _ => True, fun g _ _ => g⟩

def discipline (cfg : Config) : Discipline Call Effect Effect.Reply (Except Exn Result) Stage where
  protocol := fun
    | .create data => protocol (requestOf cfg data)
    | _ => free
  first := fun _ => .asking
  post := fun
    | .create _, _, g => g = .settled
    | _, _, _ => True

abbrev Statuses : Type := Tid → Option (Status Call Stage)

def asks (cfg : Config) (st : Statuses) (t : Tid) : Option (RecordKey × String) :=
  (st t).bind fun u => (request cfg u.call).map fun q => (q.key, q.fingerprint)

structure Inv (cfg : Config) (w : World) (running : Option Tid) (st : Statuses) : Prop where
  wakeful : w.process.idempotency.Wakeful (asks cfg st)
  creates : ∀ {t u}, st t = some u → ∃ data, u.call = .create data
  suspended : ∀ {t u}, st t = some u → u.phase = .asking → u.ended = false →
    running ≠ some t → w.process.idempotency.waiting t ≠ none
  held : ∀ {t u q}, st t = some u → request cfg u.call = some q → u.phase = .holding →
    records w q.key = some ⟨q.fingerprint, none, false⟩
  owned : ∀ {key r}, records w key = some r → r.completed = false →
    ∃ t u q, st t = some u ∧ request cfg u.call = some q ∧ q.key = key ∧ u.phase = .holding
  unique : ∀ {t t' u u' q q'}, st t = some u → st t' = some u' → request cfg u.call = some q →
    request cfg u'.call = some q' → q.key = q'.key → u.phase = .holding → u'.phase = .holding →
    t = t'

section Step

variable {cfg : Config} {profile : Profile} {s : ServiceState} {l : ServiceLabel} {t : Tid}
  {data : PaymentInput} {g m : Stage} {w : World} {b : Bool} {v : Option Tid}

theorem asks_update {st : Statuses} {u : Status Call Stage}
    (same : ∀ u', st t = some u' → u'.call = u.call) {t' : Tid} {x : RecordKey × String}
    (h : asks cfg st t' = some x) : asks cfg (Function.update st t (some u)) t' = some x := by
  obtain ⟨u', hu, ha⟩ := Option.bind_eq_some_iff.mp h
  by_cases ht : t' = t
  · subst t'
    simp only [asks, Function.update_self, Option.bind_some]
    rwa [← same u' hu]
  · simp only [asks, Function.update_of_ne ht, hu, Option.bind_some, ha]

/-- The coordinator answers a task that has told it what it asks for. -/
theorem coordinator_meets (memory : profile.coordinator = .memory) {e : CoordinatorEffect}
    {a : Answer e.Reply World} {asks : Tid → Option (RecordKey × String)}
    (awake : s.world.process.idempotency.Wakeful asks)
    (ha : ∀ key fingerprint, e = .acquire key fingerprint → asks t = some (key, fingerprint))
    (h : Delivered (system cfg profile) s l t (.coordinator e) a) :
    a.Meets fun w => w.process.idempotency.Wakeful asks ∧
      s.world.process.idempotency.Minds t w.process.idempotency := by
  have lifted {a : Answer e.Reply MemoryIdempotencyCoordinator} (hm : a.Meets fun c' =>
      c'.Wakeful asks ∧ s.world.process.idempotency.Minds t c') :
      (a.lift (Effect.setIdempotency s.world)).Meets fun w => w.process.idempotency.Wakeful asks ∧
        s.world.process.idempotency.Minds t w.process.idempotency := by
    cases a with
    | refuse => trivial
    | _ => exact hm
  obtain ⟨i, -, -, ha'⟩ | ⟨i, -, -, ha'⟩ := h.answer
  · simp only [system, Effect.enter, memory] at ha'
    exact ha' ▸ lifted (enter_wakeful awake ha i)
  · simp only [system, Effect.resume, memory] at ha'
    exact ha' ▸ lifted (resume_wakeful awake ha i)

theorem coordinator_waiting (memory : profile.coordinator = .memory) {e : CoordinatorEffect}
    (h : Delivered (system cfg profile) s l t (.coordinator e) (.wait w)) :
    w.process.idempotency.waiting t ≠ none := by
  obtain ⟨i, -, -, ha⟩ | ⟨i, -, -, ha⟩ := h.answer
  · simp only [system, Effect.enter, memory] at ha
    obtain ⟨c, hc, rfl⟩ := Answer.lift_wait ha.symm
    exact enter_waiting hc
  · simp only [system, Effect.resume, memory] at ha
    obtain ⟨c, hc, rfl⟩ := Answer.lift_wait ha.symm
    exact resume_waiting hc

variable (inv : Inv cfg s.world s.running ((discipline cfg).statuses s))
  (ht : (discipline cfg).statuses s t = some ⟨.create data, g, false⟩)

include inv ht

omit inv in
theorem asked {e : Effect} (hok : ok (requestOf cfg data) g e) (key : RecordKey)
    (fingerprint : String) (he : e = .coordinator (.acquire key fingerprint)) :
    asks cfg ((discipline cfg).statuses s) t = some (key, fingerprint) := by
  subst he
  cases g with
  | asking =>
    obtain ⟨rfl, rfl⟩ := hok
    simp only [asks, ht, Option.bind_some]
    rfl
  | _ => exact hok.elim

/-- What has to be shown of a step that takes a call on to another stage. -/
theorem inv_moves {e : Effect} {r : e.Reply}
    (h : Delivered (system cfg profile) s l t e (.reply r w))
    (hg : Goes (discipline cfg) t (.create data) m b v)
    (awake : w.process.idempotency.Wakeful (asks cfg ((discipline cfg).statuses s)))
    (minds : s.world.process.idempotency.Minds t w.process.idempotency)
    (settles : m ≠ .asking)
    (self : m = .holding → records w (requestOf cfg data).key =
      some ⟨(requestOf cfg data).fingerprint, none, false⟩)
    (other : ∀ {u x q}, u ≠ t → (discipline cfg).statuses s u = some x →
      request cfg x.call = some q → x.phase = .holding → records w q.key = records s.world q.key)
    (alone : m = .holding → ∀ {u x q}, u ≠ t → (discipline cfg).statuses s u = some x →
      request cfg x.call = some q → q.key = (requestOf cfg data).key → x.phase ≠ .holding)
    (owned : ∀ {key r}, records w key = some r → r.completed = false →
      key = (requestOf cfg data).key ∧ m = .holding ∨
        (∃ r', records s.world key = some r' ∧ r'.completed = false) ∧
          (g = .holding → key ≠ (requestOf cfg data).key)) :
    Inv cfg w v
      (Function.update ((discipline cfg).statuses s) t (some ⟨.create data, m, b⟩)) where
  wakeful := awake.mono fun t' x => asks_update fun u hu => by
    obtain rfl := Option.some.inj (ht.symm.trans hu)
    rfl
  creates := fun hu => by
    obtain ⟨rfl, rfl⟩ | ⟨-, hu⟩ := update_cases hu
    · exact ⟨data, rfl⟩
    · exact inv.creates hu
  suspended := fun {t' u} hu hp open_ _ => by
    obtain ⟨rfl, rfl⟩ | ⟨hne, hu⟩ := update_cases hu
    · exact absurd hp settles
    · rw [minds t' hne]
      exact inv.suspended hu hp open_ fun running => hne (h.running running)
  held := fun hu hq hp => by
    obtain ⟨rfl, rfl⟩ | ⟨hne, hu⟩ := update_cases hu
    · cases hq
      exact self hp
    · rw [other hne hu hq hp]
      exact inv.held hu hq hp
  owned := fun {key r} hr hc => by
    obtain ⟨rfl, hm⟩ | ⟨⟨r', hr', hc'⟩, hne⟩ := owned hr hc
    · exact ⟨t, _, _, Function.update_self .., rfl, rfl, hm⟩
    · obtain ⟨u, x, q, hu, hq, rfl, hx⟩ := inv.owned hr' hc'
      have hut : u ≠ t := by
        rintro rfl
        obtain rfl := Option.some.inj (ht.symm.trans hu)
        cases hq
        exact hne hx rfl
      exact ⟨u, x, q, by rwa [Function.update_of_ne hut], hq, rfl, hx⟩
  unique := fun hu hu' hq hq' hk hp hp' => by
    obtain ⟨rfl, rfl⟩ | ⟨hne, old⟩ := update_cases hu <;>
      obtain ⟨rfl, rfl⟩ | ⟨hne', old'⟩ := update_cases hu'
    · rfl
    · cases hq
      exact absurd hp' (alone hp hne' old' hq' hk.symm)
    · cases hq'
      exact absurd hp (alone hp' hne old hq hk)
    · exact inv.unique old old' hq hq' hk hp hp'

/-- Only the coordinator knows of claims. -/
theorem inv_other {e : Effect} {r : e.Reply} (he : ∀ a, e ≠ .coordinator a)
    (hok : ok (requestOf cfg data) g e)
    (h : Delivered (system cfg profile) s l t e (.reply r w))
    (hg : Goes (discipline cfg) t (.create data) (next g e r) b v) :
    Inv cfg w v
      (Function.update ((discipline cfg).statuses s) t (some ⟨.create data, next g e r, b⟩)) := by
  have same := (reply_touches h).idempotency he
  have stays : next g e r = g := by
    cases e with
    | coordinator a => exact absurd rfl (he a)
    | _ => cases g <;> rfl
  have beyond : g ≠ .asking := by
    rintro rfl
    cases e with
    | coordinator a => exact absurd rfl (he a)
    | _ => exact hok
  have records_same (key : RecordKey) : records w key = records s.world key := by
    simp only [Claim.records, same]
  rw [stays] at hg ⊢
  apply inv_moves inv ht h hg (by rw [same]; exact inv.wakeful)
    (fun u _ => congrFun (congrArg waiting same) u) beyond
  · intro hp
    rw [records_same]
    exact inv.held ht rfl hp
  · exact fun _ _ _ _ => records_same _
  · intro hp u x q hne hu hq hk hx
    exact hne (inv.unique hu ht hq rfl hk hx hp)
  · intro key r hr hc
    by_cases hk : key = (requestOf cfg data).key ∧ g = .holding
    · exact .inl hk
    · exact .inr ⟨⟨r, records_same key ▸ hr, hc⟩, fun hp hkey => hk ⟨hkey, hp⟩⟩

variable (memory : profile.coordinator = .memory)

include memory

/-- A decision gives the call the claim on a vacant key, or leaves the records alone. -/
theorem inv_acquire {key : RecordKey} {fingerprint : String} {r : Except Exn IdempotencyDecision}
    (hok : ok (requestOf cfg data) g (.coordinator (.acquire key fingerprint)))
    (h : Delivered (system cfg profile) s l t (.coordinator (.acquire key fingerprint))
      (.reply r w))
    (hg : Goes (discipline cfg) t (.create data)
      (next g (.coordinator (.acquire key fingerprint)) r) b v) :
    Inv cfg w v (Function.update ((discipline cfg).statuses s) t
      (some ⟨.create data, next g (.coordinator (.acquire key fingerprint)) r, b⟩)) := by
  obtain ⟨awake, minds⟩ := coordinator_meets memory inv.wakeful
    (fun k f he => asked ht hok k f (by rw [he])) h
  obtain ⟨c, decides, rfl⟩ := acquire_direct_reply memory h
  cases g with
  | asking =>
    obtain ⟨rfl, rfl⟩ := hok
    have settled (unmoved : s.world.process.idempotency.Unmoved c)
        (hn : next .asking (.coordinator (.acquire (requestOf cfg data).key
          (requestOf cfg data).fingerprint)) r = .settled) : Inv cfg
        (Effect.setIdempotency s.world c) v (Function.update ((discipline cfg).statuses s) t
          (some ⟨.create data, next .asking (.coordinator (.acquire (requestOf cfg data).key
          (requestOf cfg data).fingerprint)) r, b⟩)) := by
      have same (key : RecordKey) :
          records (Effect.setIdempotency s.world c) key = records s.world key :=
        congrFun unmoved.records key
      rw [hn] at hg ⊢
      apply inv_moves inv ht h hg awake minds nofun nofun (fun _ _ _ _ => same _) nofun
      intro key r hr hc
      exact .inr ⟨⟨r, same key ▸ hr, hc⟩, nofun⟩
    cases decides with
    | @claimed _ event vacant recorded events =>
      have records_claimed (key : RecordKey) : records (Effect.setIdempotency s.world c) key =
          if key = (requestOf cfg data).key then some ⟨(requestOf cfg data).fingerprint, none, false⟩
          else records s.world key := by
        show c.records key = _
        rw [recorded, Function.update_apply]
        rfl
      have others {u : Tid} {x : Status Call Stage} {q : Request}
          (hu : (discipline cfg).statuses s u = some x) (hq : request cfg x.call = some q)
          (hx : x.phase = .holding) : q.key ≠ (requestOf cfg data).key := by
        intro hk
        have found := inv.held hu hq hx
        rw [hk] at found
        cases vacant.symm.trans found
      apply inv_moves (m := .holding) inv ht h hg awake minds nofun
      · exact fun _ => by rw [records_claimed, if_pos rfl]
      · intro u x q _ hu hq hx
        rw [records_claimed, if_neg (others hu hq hx)]
      · exact fun _ _ _ _ _ hu hq hk hx => others hu hq hx hk
      · intro key r hr hc
        rw [records_claimed] at hr
        split at hr
        · rename_i hk
          exact .inl ⟨hk, rfl⟩
        · exact .inr ⟨⟨r, hr, hc⟩, nofun⟩
    | lost found pending event => exact absurd event (inv.wakeful.registered found pending)
    | conflict found differs unmoved => exact settled unmoved rfl
    | completed found same completed unmoved => exact settled unmoved rfl
    | cancelled unmoved => exact settled unmoved rfl
  | _ => exact hok.elim

omit ht in
/-- An owner that completes or aborts its claim closes the record of its key. -/
theorem inv_closes {e : CoordinatorEffect} {r : e.Reply} {c : MemoryIdempotencyCoordinator}
    {record : Option IdempotencyRecord}
    (ht : (discipline cfg).statuses s t = some ⟨.create data, .holding, false⟩)
    (hok : ok (requestOf cfg data) .holding (.coordinator e))
    (recorded : c.records =
      Function.update s.world.process.idempotency.records (requestOf cfg data).key record)
    (closed : ∀ r, record = some r → r.completed = true)
    (h : Delivered (system cfg profile) s l t (.coordinator e)
      (.reply r (Effect.setIdempotency s.world c)))
    (hg : Goes (discipline cfg) t (.create data) .settled b v) :
    Inv cfg (Effect.setIdempotency s.world c) v
      (Function.update ((discipline cfg).statuses s) t (some ⟨.create data, .settled, b⟩)) := by
  obtain ⟨awake, minds⟩ := coordinator_meets memory inv.wakeful
    (fun k f he => asked ht hok k f (by rw [he])) h
  have records_closed (key : RecordKey) : records (Effect.setIdempotency s.world c) key =
      if key = (requestOf cfg data).key then record else records s.world key := by
    show c.records key = _
    rw [recorded, Function.update_apply]
    rfl
  apply inv_moves inv ht h hg awake minds nofun nofun
  · intro u x q hne hu hq hx
    have hk : q.key ≠ (requestOf cfg data).key := fun hk =>
      hne (inv.unique hu ht hq rfl hk hx rfl)
    rw [records_closed, if_neg hk]
  · nofun
  · intro key r hr hc
    rw [records_closed] at hr
    split at hr
    · rw [closed r hr] at hc
      cases hc
    · rename_i hk
      exact .inr ⟨⟨r, hr, hc⟩, fun _ => hk⟩

theorem inv_reply {e : Effect} {r : e.Reply} (hok : ok (requestOf cfg data) g e)
    (h : Delivered (system cfg profile) s l t e (.reply r w)) :
    may e r ∧ ∀ b v, Goes (discipline cfg) t (.create data) (next g e r) b v →
      Inv cfg w v (Function.update ((discipline cfg).statuses s) t
        (some ⟨.create data, next g e r, b⟩)) := by
  cases e with
  | coordinator e =>
    cases e with
    | acquire key fingerprint =>
      exact ⟨trivial, fun b v hg => inv_acquire inv ht memory hok h hg⟩
    | complete key fingerprint paymentId =>
      cases g with
      | holding =>
        have asked := hok
        obtain ⟨rfl, rfl⟩ := hok
        obtain ⟨rfl, rfl⟩ := complete_direct memory h
        obtain ⟨succeeds, recorded, -⟩ := complete_of_claimed (inv.held ht rfl rfl) paymentId
        refine ⟨by rw [succeeds]; trivial, fun b v hg => ?_⟩
        exact inv_closes inv memory ht asked recorded (by rintro r ⟨⟩; rfl) h hg
      | _ => exact hok.elim
    | abort key fingerprint =>
      cases g with
      | holding =>
        have asked := hok
        obtain ⟨rfl, rfl⟩ := hok
        obtain ⟨rfl, rfl⟩ := abort_direct memory h
        obtain ⟨recorded, -⟩ := abort_of_claimed (inv.held ht rfl rfl)
        exact ⟨trivial, fun b v hg =>
          inv_closes inv memory ht asked recorded nofun h hg⟩
      | _ => exact hok.elim
  | _ => exact ⟨trivial, fun b v hg => inv_other inv ht (fun _ => nofun) hok h hg⟩

theorem inv_wait {e : Effect} (hok : ok (requestOf cfg data) g e)
    (h : Delivered (system cfg profile) s l t e (.wait w)) :
    Inv cfg w none ((discipline cfg).statuses s) := by
  have keeps (awake : w.process.idempotency.Wakeful (asks cfg ((discipline cfg).statuses s)))
      (records_same : ∀ key, records w key = records s.world key)
      (suspended : ∀ {t' u}, (discipline cfg).statuses s t' = some u → u.phase = .asking →
        u.ended = false → w.process.idempotency.waiting t' ≠ none) :
      Inv cfg w none ((discipline cfg).statuses s) := {
    wakeful := awake
    creates := inv.creates
    suspended := fun hu hp open_ _ => suspended hu hp open_
    held := fun hu hq hp => by
      rw [records_same]
      exact inv.held hu hq hp
    owned := fun hr hc => inv.owned (records_same _ ▸ hr) hc
    unique := inv.unique }
  by_cases he : ∃ a, e = .coordinator a
  · obtain ⟨a, rfl⟩ := he
    obtain ⟨awake, minds⟩ := coordinator_meets memory inv.wakeful
      (fun k f he => asked ht hok k f (by rw [he])) h
    obtain ⟨key, fingerprint, rfl⟩ := coordinator_wait memory h
    obtain ⟨c, unmoved, rfl⟩ := acquire_direct_wait memory h
    apply keeps awake fun key => congrFun unmoved.records key
    intro t' u hu hp open_
    by_cases hne : t' = t
    · subst t'
      exact coordinator_waiting memory h
    · rw [minds t' hne]
      exact inv.suspended hu hp open_ fun running => hne (h.running running)
  · have same := (wait_touches h).idempotency fun a ha => he ⟨a, ha⟩
    apply keeps
    · rw [same]
      exact inv.wakeful
    · intro key
      simp only [Claim.records, same]
    · intro t' u hu hp open_
      rw [same]
      by_cases hne : t' = t
      · subst t'
        obtain rfl := Option.some.inj (ht.symm.trans hu)
        obtain rfl : g = .asking := hp
        cases e with
        | coordinator a => exact absurd ⟨a, rfl⟩ he
        | _ => exact hok.elim
      · exact inv.suspended hu hp open_ fun running => hne (h.running running)

end Step

theorem run_follows {cfg : Config} (direct : cfg.coordinator = .direct) (c : Call) :
    ((c.run cfg).start {}).Follows ((discipline cfg).protocol c) ((discipline cfg).post c)
      ((discipline cfg).first c) := by
  have anything {Q : Except Exn Result → Stage → Prop} (hQ : ∀ a g, Q a g)
      (c : Coroutine Effect Effect.Reply (Except Exn Result)) (g : Stage) : c.Follows free Q g := by
    induction c generalizing g with
    | done a => exact hQ a g
    | perform e k ih => exact ⟨trivial, fun r _ => ih r g⟩
  cases c with
  | create data =>
    apply start_follows
    show wp (protocol (requestOf cfg data)) (Call.run cfg (.create data)) _ _ _
    simp only [Call.run, wp_bind]
    apply wp_mono (create_wp direct data)
    intro r s g h
    cases r <;> exact h
  | refund paymentId amount => exact anything (fun _ _ => trivial) _ _
  | recover provider => exact anything (fun _ _ => trivial) _ _

theorem inv_call {cfg : Config} {w : World} {st : Statuses} {t : Tid} {data : PaymentInput}
    {b : Bool} {v : Option Tid} (inv : Inv cfg w none st) (new : st t = none)
    (hg : Goes (discipline cfg) t (.create data) .asking b v) :
    Inv cfg w v (Function.update st t (some ⟨.create data, .asking, b⟩)) where
  wakeful := inv.wakeful.mono fun t' x => asks_update fun u hu => by
    cases new.symm.trans hu
  creates := fun hu => by
    obtain ⟨-, rfl⟩ | ⟨-, hu⟩ := update_cases hu
    · exact ⟨data, rfl⟩
    · exact inv.creates hu
  suspended := fun {t' u} hu hp open_ hv => by
    obtain ⟨rfl, rfl⟩ | ⟨-, hu⟩ := update_cases hu
    · cases hg with
      | on => exact absurd rfl hv
      | ended => cases open_
    · exact inv.suspended hu hp open_ nofun
  held := fun hu hq hp => by
    obtain ⟨-, rfl⟩ | ⟨-, hu⟩ := update_cases hu
    · cases hp
    · exact inv.held hu hq hp
  owned := fun hr hc => by
    obtain ⟨u, x, q, hu, hq, hk, hx⟩ := inv.owned hr hc
    have hut : u ≠ t := by
      rintro rfl
      cases new.symm.trans hu
    exact ⟨u, x, q, by rwa [Function.update_of_ne hut], hq, hk, hx⟩
  unique := fun hu hu' hq hq' hk hp hp' => by
    obtain ⟨-, rfl⟩ | ⟨-, old⟩ := update_cases hu
    · cases hp
    · obtain ⟨-, rfl⟩ | ⟨-, old'⟩ := update_cases hu'
      · cases hp'
      · exact inv.unique old old' hq hq' hk hp hp'

theorem maintains {cfg : Config} {profile : Profile} (direct : cfg.coordinator = .direct)
    (memory : profile.coordinator = .memory) :
    Maintains (system cfg profile) Creates (discipline cfg) (Inv cfg) where
  follows := run_follows direct
  call := fun {s t c b v} meets inv new hg => by
    cases c with
    | create data => exact inv_call inv new hg
    | refund paymentId amount => exact meets.elim
    | recover provider => exact meets.elim
  reply := fun {s l t c g e r w} _ inv ht hok h => by
    obtain ⟨data, rfl⟩ := inv.creates ht
    exact inv_reply inv ht memory hok h
  wait := fun {s l t c g e w} _ inv ht hok h => by
    obtain ⟨data, rfl⟩ := inv.creates ht
    exact inv_wait inv ht memory hok h
  outside := fun {s a w} _ inv h => by
    have same : w.process.idempotency = s.world.process.idempotency := by
      cases a with
      | setProviderConcurrency provider limit => cases h; rfl
      | tick elapsed => obtain ⟨r, -, rfl⟩ := Option.map_eq_some_iff.mp h; rfl
    exact {
      wakeful := by rw [same]; exact inv.wakeful
      creates := inv.creates
      suspended := fun hu hp open_ hv => by rw [same]; exact inv.suspended hu hp open_ hv
      held := fun hu hq hp => by
        simp only [Claim.records, same]
        exact inv.held hu hq hp
      owned := fun hr hc => by
        simp only [Claim.records, same] at hr
        exact inv.owned hr hc
      unique := inv.unique }

theorem inv_initial (cfg : Config) (circuit : CircuitBreaker)
    (concurrency : List (Provider × ℕ)) :
    Inv cfg (.initial circuit concurrency) none fun _ => none := by
  have fresh : (Process.initial circuit concurrency).idempotency = .empty :=
    Process.initial_eq (fun p => p.idempotency) (fun _ _ _ => rfl) circuit concurrency
  refine ⟨?_, nofun, nofun, nofun, ?_, nofun⟩
  · show (Process.initial circuit concurrency).idempotency.Wakeful _
    rw [fresh]
    exact wakeful_empty _
  · intro key r hr
    replace hr : (Process.initial circuit concurrency).idempotency.records key = some r := hr
    rw [fresh] at hr
    cases hr

/-- Whoever is suspended in `acquire` waits for an event that is set, or that is registered for
an unfinished record of its key with its fingerprint. -/
def NobodyForgotten {κ ε : Type} {ρ : ε → Type} {α ω : Type} (effect : CoordinatorEffect → ε)
    (coordinator : ω → MemoryIdempotencyCoordinator) (s : State Tid κ ε ρ α ω) : Prop :=
  ∀ {t key fingerprint}, s.At t (effect (.acquire key fingerprint)) → s.running ≠ some t →
    ∃ event, (coordinator s.world).waiting t = some event ∧
      ((coordinator s.world).isSet event = true ∨
        (coordinator s.world).Awaited key fingerprint event)

/-- A call of `create` that is under way has got the decision `CLAIMED` for the key, and has not
completed or aborted the claim since. -/
structure Owns (cfg : Config) (s : ServiceState) (key : RecordKey) (fingerprint : String)
    (t : Tid) : Prop where
  owner : ∃ T data, s.tasks t = some T ∧ T.call = .create data ∧ data.key = key ∧
    requestFingerprint cfg.sha256 data = fingerprint ∧ T.code.isDone = false ∧
    (discipline cfg).phase T = .holding

structure NoOrphans (cfg : Config) (s : ServiceState) : Prop where
  forgotten : NobodyForgotten Effect.coordinator (fun w => w.process.idempotency) s
  owned : ∀ {key r}, s.world.process.idempotency.records key = some r → r.completed = false →
    ∃! t, Owns cfg s key r.fingerprint t
  idle : s.Idle → ∀ key r, s.world.process.idempotency.records key = some r → r.completed = true

section Reached

variable {cfg : Config} {s : ServiceState} (kept : (discipline cfg).Kept s)
  (inv : Inv cfg s.world s.running ((discipline cfg).statuses s))

include kept inv

theorem forgotten_of_inv :
    NobodyForgotten Effect.coordinator (fun w => w.process.idempotency) s := by
  rintro t key fingerprint ⟨T, task, head⟩ suspended
  have follows := kept t T task
  have hu := (discipline cfg).statuses_of_task task
  obtain ⟨data, hcall⟩ := inv.creates hu
  obtain ⟨c, code, trace⟩ := T
  obtain rfl : c = .create data := hcall
  cases code with
  | done a => cases head
  | perform e k =>
    cases head
    have hok := follows.1
    generalize hp : (discipline cfg).phase ⟨.create data, _, trace⟩ = g at hok
    have stage : g = .asking ∧ key = (requestOf cfg data).key ∧
        fingerprint = (requestOf cfg data).fingerprint := by
      cases g with
      | asking => exact ⟨rfl, hok⟩
      | _ => exact hok.elim
    obtain ⟨rfl, rfl, rfl⟩ := stage
    obtain ⟨event, hw⟩ := Option.ne_none_iff_exists'.mp (inv.suspended hu hp rfl suspended)
    obtain ⟨-, key, fingerprint, ha, hs⟩ := inv.wakeful.waiting hw
    simp only [asks, hu, Option.bind_some, Discipline.status, request, Option.map_some] at ha
    cases ha
    exact ⟨event, hw, hs⟩

theorem owner_of_record {key : RecordKey} {r : IdempotencyRecord}
    (found : s.world.process.idempotency.records key = some r) (unfinished : r.completed = false) :
    ∃! t, Owns cfg s key r.fingerprint t := by
  obtain ⟨t, u, q, hu, hq, rfl, hp⟩ := inv.owned found unfinished
  obtain ⟨T, task, rfl⟩ := (discipline cfg).statuses_some hu
  obtain ⟨data, hcall⟩ := inv.creates hu
  have same : some r = some (⟨q.fingerprint, none, false⟩ : IdempotencyRecord) := by
    rw [← found]
    exact inv.held hu hq hp
  obtain rfl := Option.some.inj same
  have follows := kept t T task
  obtain ⟨c, code, trace⟩ := T
  obtain rfl : c = .create data := hcall
  cases hq
  have open_ : code.isDone = false := by
    cases code with
    | perform e k => rfl
    | done a =>
      replace follows : (discipline cfg).phase ⟨.create data, .done a, trace⟩ = .settled := follows
      cases follows.symm.trans hp
  refine ⟨t, ⟨_, data, task, rfl, rfl, rfl, open_, hp⟩, ?_⟩
  rintro t' ⟨T', data', task', hcall', hk, -, -, hp'⟩
  refine inv.unique ((discipline cfg).statuses_of_task task') hu
    (q := requestOf cfg data') ?_ rfl hk hp' hp
  rw [show ((discipline cfg).status T').call = _ from hcall']
  rfl

theorem noOrphans_of_inv : NoOrphans cfg s where
  forgotten := forgotten_of_inv kept inv
  owned := owner_of_record kept inv
  idle := fun idle key r found => by
    cases hc : r.completed with
    | true => rfl
    | false =>
      obtain ⟨t, ⟨T, data, task, -, -, -, open_, -⟩, -⟩ := owner_of_record kept inv found hc
      cases (idle t T task).symm.trans open_

end Reached

/-- The coordinator of a process forgets no waiter, whoever calls it; and when it is called by
`create`, with a store that may fail at any time, every claim belongs to a call under way. -/
theorem no_orphans :
    (∀ s, Reaches CoordinatorCalls.system (fun _ _ => True) (.empty .empty) s →
      NobodyForgotten id id s) ∧
    ∀ (cfg : Config) (profile : Profile), cfg.coordinator = .direct →
      profile.coordinator = .memory → ∀ (circuit : CircuitBreaker)
      (concurrency : List (Provider × ℕ)) (s : ServiceState),
      Reaches (system cfg profile) Creates (.empty (.initial circuit concurrency)) s →
      NoOrphans cfg s := by
  constructor
  · intro s h t key fingerprint reached suspended
    exact CoordinatorCalls.waiter_awaited h reached suspended
  · intro cfg profile direct memory circuit concurrency s h
    obtain ⟨kept, inv⟩ :=
      (maintains direct memory).reaches_empty (inv_initial cfg circuit concurrency) h
    exact noOrphans_of_inv kept inv

section Instances

open Scenario

/-- The owner of a key waits for its provider, and a second call waits for the owner. -/
def joined : List ServiceLabel :=
  create 0 0 (card "a") 1 ++ ask 0 0 ++ start 0 ++ [.call 1 (.create (card "a")), .enter 1 .go]

/-- Two calls of a coordinator by itself for one key. -/
def acquiredTwice : List (Label Tid CoordinatorEffect Input Empty) :=
  [.call 0 (.acquire ("merchant", "a") "f"), .enter 0 .go,
    .call 1 (.acquire ("merchant", "a") "f"), .enter 1 .go]

theorem no_orphans_waiting :
    (∃ s : ServiceState, (s.world.process.idempotency.waiting 1).isSome ∧
      NoOrphans (service ["stripe"] 1) s) ∧
    ∃ s : CoordinatorCalls.CallState, (s.world.waiting 1).isSome ∧ NobodyForgotten id id s := by
  have h : ∃ s ∈ run (system (service ["stripe"] 1) {}) joined (.empty (.initial fragile [])),
      (s.world.process.idempotency.waiting 1).isSome := by
    decide +kernel
  obtain ⟨s, moved, waits⟩ := h
  have meets : ∀ l ∈ joined, ∀ s, Creates s l := by
    simp [joined, Scenario.create, ask, Scenario.start, Creates]
  refine ⟨⟨s, waits, no_orphans.2 _ {} rfl rfl fragile [] s
    (run_reaches _ (throughout_of_forall _ meets _) moved)⟩, ?_⟩
  have h : ∃ s ∈ run CoordinatorCalls.system acquiredTwice (.empty .empty),
      (s.world.waiting 1).isSome := by
    decide +kernel
  obtain ⟨s, moved, waits⟩ := h
  exact ⟨s, waits, no_orphans.1 s
    (run_reaches _ (throughout_of_forall _ (fun _ _ _ => trivial) _) moved)⟩

end Instances

end PySwitch.Owner
