import PySwitch.ReferenceRuns

namespace PySwitch.Solo

open Async Program Service Visits

section Protocol

variable (data : PaymentInput)

/-- The replies a create gets that is alone with its key. -/
def may (g : Trace) : (e : Effect) → e.Reply → Prop
  | .coordinator (.acquire key _), r => key = data.key → g = [] → r = .ok ⟨.claimed, none⟩
  | .store (.getByIdempotency key), r => key = data.key → saves g = [] → r = .ok none
  | .provider (.healthCheck _), r => ∃ answer, r = .ok answer
  | .provider (.choose healthy), .ok provider => provider ∈ healthy
  | .provider (.choose healthy), .error _ => healthy = []
  | e, r => ¬Broken ⟨e, r⟩

/-- The phase of a call is its trace. -/
def protocol : Protocol Effect Effect.Reply Trace :=
  ⟨fun _ _ => True, may data, fun g e r => g ++ [⟨e, r⟩]⟩

end Protocol

variable {data : PaymentInput} {cfg : Config}

/-- Every provider has been asked for its health, and the router chooses among those that are
healthy. -/
structure Chosen (providers : List Provider) (health : Provider → Bool) (trace before after : Trace)
    (answer : Except Exn Provider) : Prop where
  asked : trace = before ++ ⟨.provider (.choose (providers.filter health)), answer⟩ :: after
  checked : checks before = providers.map fun p => (p, health p)
  healthy : ∀ provider, answer = .ok provider → provider ∈ providers.filter health
  unhealthy : ∀ x, answer = .error x → providers.filter health = []

def Routed (providers : List Provider) (g : Trace) : Prop :=
  ∃ health before after answer, Chosen providers health g before after answer

theorem routed_keeps {α : Type} {providers : List Provider} (m : Service α) :
    Keeps (protocol data) (fun _ g => Routed providers g) m := by
  apply keeps_of_replies
  rintro _ e ⟨health, before, after, answer, rfl, checked, healthy, unhealthy⟩
  exact ⟨trivial, fun r _ => ⟨health, before, after ++ [⟨e, r⟩], answer, by simp [protocol],
    checked, healthy, unhealthy⟩⟩

section Create

variable {s : Locals} {g : Trace}

theorem checks_concat (g : Trace) (x : (e : Effect) × e.Reply) :
    checks (g ++ [x]) = checks g ++ (check x).toList := by
  simp only [checks, List.filterMap_append, List.filterMap_cons, List.filterMap_nil]
  cases check x <;> rfl

theorem healthyProviders_wp {providers : List Provider} (distinct : providers.Nodup) :
    wp (protocol data) (healthyProviders providers) (fun r s' g' => ∃ health : Provider → Bool,
      r = .ok (providers.filter health) ∧ s' = s ∧
      checks g' = checks g ++ providers.map fun p => (p, health p)) s g := by
  induction providers generalizing g with
  | nil => exact ⟨fun _ => true, rfl, rfl, (List.append_nil _).symm⟩
  | cons provider rest ih =>
    obtain ⟨new, distinct⟩ := List.nodup_cons.mp distinct
    simp only [healthyProviders, perform, wp_bind, wp_await, wp_effect]
    refine ⟨trivial, fun r hr => ?_⟩
    obtain ⟨answer, rfl⟩ : ∃ answer, r = .ok answer := hr
    simp only [orRaise_ok, wp_bind]
    apply wp_mono (ih distinct)
    rintro _ s' g' ⟨health, rfl, rfl, grown⟩
    -- The answer of this provider, and those of the others, who are not asked a second time.
    have others {p : Provider} (hp : p ∈ rest) :
        Function.update health provider answer p = health p := by
      apply Function.update_of_ne
      rintro rfl
      exact new hp
    have found : rest.filter (Function.update health provider answer) = rest.filter health :=
      List.filter_congr fun p hp => others hp
    have answers : (rest.map fun p => (p, Function.update health provider answer p)) =
        rest.map fun p => (p, health p) :=
      List.map_congr_left fun p hp => by rw [others hp]
    refine ⟨Function.update health provider answer, ?_, rfl, ?_⟩
    · rw [List.filter_cons, Function.update_self, found]
    · rw [grown, List.map_cons, Function.update_self, answers]
      simp [protocol, checks_concat, check]

theorem orchestrate_wp (distinct : cfg.providers.Nodup) (fingerprint : String)
    (first : checks g = []) :
    wp (protocol data) (orchestrate cfg data fingerprint) (fun _ _ g' => Routed cfg.providers g')
      s g := by
  simp only [orchestrate, newPayment, uuid4, now, perform, wp_bind, wp_effect, orRaise_ok, wp_pure,
    wp_modify]
  refine ⟨trivial, fun id _ => ⟨trivial, fun createdAt _ => ⟨trivial, fun updatedAt _ => ?_⟩⟩⟩
  apply wp_mono (healthyProviders_wp distinct)
  rintro _ s' g' ⟨health, rfl, rfl, grown⟩
  have all : checks g' = cfg.providers.map fun p => (p, health p) := by
    rw [grown]
    simp only [protocol]
    rw [checks_concat, checks_concat, checks_concat, first]
    rfl
  simp only [orRaise_ok, wp_bind, wp_await, wp_effect]
  refine ⟨trivial, fun r hr => ?_⟩
  have routed : Routed cfg.providers
      (g' ++ [⟨.provider (.choose (cfg.providers.filter health)), r⟩]) := by
    refine ⟨health, g', [], r, rfl, all, ?_, ?_⟩
    · rintro provider rfl
      have mem : provider ∈ cfg.providers.filter health := hr
      exact mem
    · rintro x rfl
      have none : cfg.providers.filter health = [] := hr
      exact none
  cases r with
  | error x => exact routed
  | ok provider => exact routed_keeps _ _ _ routed

theorem createClaimed_wp (distinct : cfg.providers.Nodup) (fingerprint : String)
    (first : checks g = []) (unsaved : saves g = []) :
    wp (protocol data) (createClaimed cfg data fingerprint) (fun _ _ g' => Routed cfg.providers g')
      s g := by
  simp only [createClaimed, perform, wp_bind, wp_await, wp_effect]
  refine ⟨trivial, fun r hr => ?_⟩
  obtain rfl : r = .ok none := hr rfl unsaved
  rw [orRaise_ok]
  apply orchestrate_wp distinct
  simp [protocol, checks_concat, check, first]

theorem create_wp (direct : cfg.coordinator = .direct) (distinct : cfg.providers.Nodup) :
    wp (protocol data) (create cfg data) (fun _ _ g' => Routed cfg.providers g') s [] := by
  simp only [create, direct, Coordinator.direct, perform, wp_bind, wp_await, wp_effect]
  refine ⟨trivial, fun r hr => ?_⟩
  obtain rfl : r = .ok ⟨.claimed, none⟩ := hr rfl rfl
  simp only [orRaise_ok, wp_bind, wp_modify, wp_attempt]
  apply wp_mono (createClaimed_wp distinct _ rfl rfl)
  intro r s' g' routed
  exact routed_keeps _ _ _ routed

end Create

section Answers

variable {profile : Profile} {s : ServiceState} {l : ServiceLabel} {t : Tid} {w : World}

/-- Providers return or raise a `ProviderError`, health checks answer, and nothing is cancelled. -/
def Plain : Input → Prop
  | .cancel => False
  | .outcome (.error x) => ∃ error, x = .provider error
  | .healthy (.error _) => False
  | _ => True

/-- The steps of a run of one create alone. -/
def Alone (t : Tid) (data : PaymentInput) : ServiceLabel → Prop
  | .call u c => u = t ∧ c = .create data
  | .enter _ i => Plain i
  | .resume _ i => Plain i
  | .outside _ => True

theorem acquire_vacant (memory : profile.coordinator = .memory) {key : RecordKey}
    {fingerprint : String} {r : Except Exn IdempotencyDecision} (meets : Alone t data l)
    (vacant : s.world.process.idempotency.records key = none)
    (h : Delivered (system cfg profile) s l t (.coordinator (.acquire key fingerprint))
      (.reply r w)) : r = .ok ⟨.claimed, none⟩ := by
  have claims {c c' : MemoryIdempotencyCoordinator} (none : c.records key = none)
      (hc : c.acquire t key fingerprint = .reply r c') : r = .ok ⟨.claimed, .none⟩ := by
    simp only [MemoryIdempotencyCoordinator.acquire, none] at hc
    cases hc
    rfl
  obtain ⟨i, -, -, ha⟩ | ⟨i, rfl, -, ha⟩ := h.answer
  · simp only [system, Effect.enter, memory] at ha
    obtain ⟨c, hc, rfl⟩ := Answer.lift_reply ha.symm
    cases i with
    | go => exact claims vacant hc
    | _ => cases hc
  · simp only [system, Effect.resume, memory] at ha
    obtain ⟨c, hc, rfl⟩ := Answer.lift_reply ha.symm
    cases i with
    | go =>
      simp only [MemoryIdempotencyCoordinator.resume] at hc
      split at hc
      · split at hc
        · exact claims (c := s.world.process.idempotency.forget t) vacant hc
        · cases hc
      · cases hc
    | cancel => exact meets.elim
    | _ => cases hc

theorem healthCheck_reply {p : Provider} {r : Except Exn Bool} (meets : Alone t data l)
    (h : Delivered (system cfg profile) s l t (.provider (.healthCheck p)) (.reply r w)) :
    ∃ answer, r = .ok answer := by
  obtain ⟨i, -, -, ha⟩ | ⟨i, rfl, -, ha⟩ := h.answer
  · cases i <;> cases ha
  · cases i with
    | healthy answer =>
      obtain ⟨rfl, -⟩ := Answer.reply.inj ha
      cases r with
      | ok answer => exact ⟨answer, rfl⟩
      | error x => exact meets.elim
    | cancel => exact meets.elim
    | _ => cases ha

theorem choose_reply {found : List Provider} {r : Except Exn Provider}
    (h : Delivered (system cfg profile) s l t (.provider (.choose found)) (.reply r w)) :
    match r with
    | .ok provider => provider ∈ found
    | .error _ => found = [] := by
  obtain ⟨i, -, -, ha⟩ | ⟨i, -, -, ha⟩ := h.answer
  · cases found with
    | nil =>
      cases i <;> cases ha
      rfl
    | cons first rest =>
      cases i with
      | pick index =>
        simp only [system, Effect.enter, ProviderEffect.enter] at ha
        split at ha
        · rename_i provider chosen
          obtain ⟨rfl, -⟩ := Answer.reply.inj ha
          exact List.mem_of_getElem? chosen
        · cases ha
      | _ => cases ha
  · cases ha

end Answers

section Runs

variable {profile : Profile} {s : ServiceState} {l : ServiceLabel} {t : Tid} {w : World}

def discipline (cfg : Config) (data : PaymentInput) :
    Discipline Call Effect Effect.Reply (Except Exn Result) Trace where
  protocol _ := protocol data
  first _ := []
  post c _ g := c = .create data → Routed cfg.providers g

theorem run_follows (direct : cfg.coordinator = .direct) (distinct : cfg.providers.Nodup)
    (c : Call) : ((c.run cfg).start {}).Follows (protocol data)
      (fun _ g => c = .create data → Routed cfg.providers g) [] := by
  apply start_follows
  by_cases own : c = .create data
  · subst own
    simp only [Call.run, wp_bind]
    apply wp_mono (create_wp direct distinct)
    intro r s g h
    cases r <;> exact fun _ => h
  · have any : Keeps (protocol data) (fun _ _ => True) (c.run cfg) :=
      keeps_of_replies (fun _ _ _ => ⟨trivial, fun _ _ => trivial⟩) _
    exact wp_mono (any {} [] trivial) fun _ _ _ _ same => absurd same own

abbrev Statuses : Type := Tid → Option (Status Call Trace)

/-- The key is unused until the one call has claimed it and saved its payment. -/
structure Inv (t : Tid) (data : PaymentInput) (w : World) (_ : Option Tid) (st : Statuses) :
    Prop where
  only : ∀ {u x}, st u = some x → u = t ∧ x.call = .create data
  vacant : (∀ x, st t = some x → x.phase = []) → w.process.idempotency.records data.key = none
  unkeyed : (∀ x, st t = some x → saves x.phase = []) → w.store.keys data.key = none
  stored : ∀ {x p}, st t = some x → p ∈ (saves x.phase).getLast? → w.store.payments p.id = some p

theorem saved_payment (m : InMemoryPaymentStore) (p : Payment) :
    (m.save p).payments p.id = some p := by
  simp only [InMemoryPaymentStore.save, Function.update_self]

section Step

variable {v : Option Tid} {c : Call} {g : Trace} {b : Bool} {e : Effect} {r : e.Reply}
  (inv : Inv t data s.world v ((discipline cfg data).statuses s))

include inv

variable (ht : (discipline cfg data).statuses s t = some ⟨c, g, b⟩)

include ht

theorem may_of_delivered (coordinator : profile.coordinator = .memory)
    (storage : profile.storage = .memory) (meets : Alone t data l)
    (h : Delivered (system cfg profile) s l t e (.reply r w)) : may data g e r := by
  cases e with
  | coordinator e =>
    cases e with
    | acquire key fingerprint =>
      rintro rfl rfl
      apply acquire_vacant coordinator meets _ h
      apply inv.vacant
      intro x hx
      obtain rfl := Option.some.inj (ht.symm.trans hx)
      rfl
    | _ => exact id
  | store e =>
    obtain ⟨rfl, -⟩ := store_reply storage h
    cases e with
    | getByIdempotency key =>
      rintro rfl unsaved
      have unkeyed : s.world.store.keys data.key = none := by
        apply inv.unkeyed
        intro x hx
        obtain rfl := Option.some.inj (ht.symm.trans hx)
        exact unsaved
      simp only [InMemoryPaymentStore.answer, InMemoryPaymentStore.getByIdempotency, unkeyed,
        Option.bind_none]
    | _ => exact id
  | host e =>
    cases e with
    | sleep delay =>
      cases r with
      | ok => exact id
      | error x =>
        obtain ⟨-, rfl⟩ := sleep_error h
        exact meets.elim
    | _ => exact id
  | semaphore e =>
    cases e with
    | acquire p n =>
      cases r with
      | ok => exact id
      | error x =>
        obtain ⟨-, rfl⟩ := semaphore_error h
        exact meets.elim
    | _ => exact id
  | provider e =>
    cases e with
    | healthCheck p => exact healthCheck_reply meets h
    | choose found =>
      have chosen := choose_reply h
      cases r <;> exact chosen
    | finishPayment p id =>
      obtain ⟨rfl | ⟨rfl, -⟩, -⟩ := finishPayment_reply h
      · cases r with
        | ok result => exact fun broken => broken
        | error x =>
          obtain ⟨error, rfl⟩ := meets
          exact fun broken => broken error rfl
      · exact meets.elim
    | _ => exact id
  | _ => exact id

theorem inv_reply (storage : profile.storage = .memory)
    (h : Delivered (system cfg profile) s l t e (.reply r w)) {v' : Option Tid} {b' : Bool} :
    Inv t data w v' (Function.update ((discipline cfg data).statuses s) t
      (some ⟨c, g ++ [⟨e, r⟩], b'⟩)) := by
  have self {x : Status Call Trace} (hx : Function.update ((discipline cfg data).statuses s) t
      (some ⟨c, g ++ [⟨e, r⟩], b'⟩) t = some x) : x = ⟨c, g ++ [⟨e, r⟩], b'⟩ := by
    rw [Function.update_self] at hx
    exact (Option.some.inj hx).symm
  have old (unsaved : saves g = []) : s.world.store.keys data.key = none := by
    apply inv.unkeyed
    intro x hx
    obtain rfl := Option.some.inj (ht.symm.trans hx)
    exact unsaved
  have kept (quiet : Claim.savedPayment ⟨e, r⟩ = none) : w.store.keys = s.world.store.keys ∧
      w.store.payments = s.world.store.payments := by
    by_cases stores : ∃ a, e = .store a
    · obtain ⟨a, rfl⟩ := stores
      obtain ⟨-, rfl⟩ := store_reply storage h
      cases a with
      | save p => exact absurd quiet (Option.some_ne_none p)
      | saveWithEvents p events => exact absurd quiet (Option.some_ne_none p)
      | _ => exact ⟨rfl, rfl⟩
    · have same := (reply_touches h).store fun a he => stores ⟨a, he⟩
      exact ⟨congrArg _ same, congrArg _ same⟩
  constructor
  · intro u x hx
    obtain ⟨rfl, rfl⟩ | ⟨-, hx⟩ := update_cases hx
    · exact ⟨rfl, (inv.only ht).2⟩
    · exact inv.only hx
  · intro first
    have empty := first _ (Function.update_self ..)
    simp at empty
  · intro first
    have unsaved := first _ (Function.update_self ..)
    rw [saves_concat, List.append_eq_nil_iff] at unsaved
    have quiet : Claim.savedPayment ⟨e, r⟩ = none := by simpa using unsaved.2
    rw [(kept quiet).1]
    exact old unsaved.1
  · intro x p hx last
    obtain rfl := self hx
    cases saved : Claim.savedPayment ⟨e, r⟩ with
    | none =>
      rw [saves_concat, saved, Option.toList_none, List.append_nil] at last
      rw [(kept saved).2]
      exact inv.stored ht last
    | some q =>
      rw [saves_concat, saved] at last
      obtain rfl : q = p := by simpa using last
      cases e with
      | store e =>
        obtain ⟨-, rfl⟩ := store_reply storage h
        cases e with
        | save p =>
          obtain rfl : p = q := Option.some.inj saved
          exact saved_payment s.world.store p
        | saveWithEvents p events =>
          obtain rfl : p = q := Option.some.inj saved
          exact saved_payment s.world.store p
        | _ => exact absurd saved (Option.some_ne_none q).symm
      | _ => exact absurd saved (Option.some_ne_none q).symm

omit ht in
theorem inv_wait (coordinator : profile.coordinator = .memory) {u : Tid}
    (h : Delivered (system cfg profile) s l u e (.wait w)) :
    Inv t data w none ((discipline cfg data).statuses s) := by
  have same : w.store = s.world.store := by
    by_cases stores : ∃ a, e = .store a
    · obtain ⟨a, rfl⟩ := stores
      rw [store_wait h]
    · exact (wait_touches h).store fun a he => stores ⟨a, he⟩
  have records : w.process.idempotency.records = s.world.process.idempotency.records := by
    by_cases coordinates : ∃ a, e = .coordinator a
    · obtain ⟨a, rfl⟩ := coordinates
      obtain ⟨key, fingerprint, rfl⟩ := coordinator_wait coordinator h
      obtain ⟨c, unmoved, rfl⟩ := acquire_direct_wait coordinator h
      exact unmoved.records
    · rw [(wait_touches h).idempotency fun a he => coordinates ⟨a, he⟩]
  refine ⟨inv.only, ?_, ?_, ?_⟩
  · rw [records]
    exact inv.vacant
  · rw [same]
    exact inv.unkeyed
  · intro x p hx last
    rw [same]
    exact inv.stored hx last

end Step

theorem maintains (direct : cfg.coordinator = .direct) (distinct : cfg.providers.Nodup)
    (coordinator : profile.coordinator = .memory) (storage : profile.storage = .memory) :
    Maintains (system cfg profile) (fun _ => Alone t data) (discipline cfg data) (Inv t data) where
  follows := run_follows direct distinct
  call := fun {s u c b v} meets inv new _ => by
    obtain ⟨rfl, rfl⟩ := meets
    have none (x : Status Call Trace) : (discipline cfg data).statuses s u ≠ some x := by
      rw [new]
      exact nofun
    refine ⟨?_, fun _ => inv.vacant fun x hx => absurd hx (none x),
      fun _ => inv.unkeyed fun x hx => absurd hx (none x), ?_⟩
    · intro u' x hx
      obtain ⟨rfl, rfl⟩ | ⟨-, hx⟩ := update_cases hx
      · exact ⟨rfl, rfl⟩
      · exact inv.only hx
    · intro x p hx last
      obtain ⟨-, rfl⟩ | ⟨differs, -⟩ := update_cases hx
      · cases last
      · exact absurd rfl differs
  reply := fun meets inv ht _ h => by
    obtain ⟨rfl, rfl⟩ := inv.only ht
    exact ⟨may_of_delivered inv ht coordinator storage meets h,
      fun _ _ _ => inv_reply inv ht storage h⟩
  wait := fun _ inv _ _ h => inv_wait inv coordinator h
  outside := fun _ inv h => by
    have frame := outside_frame h
    refine ⟨inv.only, ?_, ?_, ?_⟩
    · rw [frame.idempotency]
      exact inv.vacant
    · rw [frame.store]
      exact inv.unkeyed
    · intro x p hx last
      rw [frame.store]
      exact inv.stored hx last

section Alone

variable (direct : cfg.coordinator = .direct) (coordinator : profile.coordinator = .memory)
  (storage : profile.storage = .memory) (distinct : cfg.providers.Nodup)
  (unclaimed : w.process.idempotency.records data.key = none)
  (unused : w.store.keys data.key = none)
  (h : Reaches (system cfg profile) (fun _ => Alone t data) (.empty w) s) {T : ServiceTask}
  (task : s.tasks t = some T)

include direct coordinator storage distinct unclaimed unused h task

end Alone

end Runs

section Examples

open Scenario

end Examples

end PySwitch.Solo
