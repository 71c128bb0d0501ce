import PySwitch.Async.Both
import PySwitch.Leases
import PySwitch.RepeatedCharge

namespace PySwitch.Lease

open Async Workers Scenario
open Charges (Books Has)

def charging (key : RecordKey) :
    Discipline PaymentInput Effect Effect.Reply (Except Exn Payment) Charges.Stage where
  protocol data := {
    ok := fun g e => data.key = key → Charges.ok key g e
    may := fun g e r => data.key = key → Charges.may g e r
    next := Charges.next }
  first _ := .fresh
  post data _ g := data.key = key → g ≠ .charged

/-- How far a call has come with its payment is read off the replies it was given. -/
def charge (T : WorkersTask) : Charges.Stage :=
  T.trace.foldl (fun g ev => Charges.next g ev.1 ev.2) .fresh

theorem charging_follows (cfg : Config) (key : RecordKey) (data : PaymentInput) :
    ((Service.create cfg data).start {}).Follows ((charging key).protocol data)
      ((charging key).post data) ((charging key).first data) := by
  by_cases asked : data.key = key
  · subst asked
    have same : (charging data.key).protocol data = Charges.protocol data.key := by
      simp only [charging, Charges.protocol, forall_const]
    rw [same]
    apply start_follows
    exact wp_mono (Charges.create_wp data) fun _ _ _ left _ => left
  · apply start_follows
    apply wp_mono (keeps_of_replies (J := fun _ => True) ?_ _ _ _ trivial)
    · exact fun _ _ _ _ same => absurd same asked
    · exact fun _ _ _ => ⟨fun same => absurd same asked, fun _ _ => trivial⟩

abbrev Phases : Type := Tid → Option (Status PaymentInput (Stage × Charges.Stage))

def owing (key : RecordKey) (st : Phases) : Charges.Stages := fun t =>
  (st t).bind fun u => if u.call.key = key then some (u.phase.2, !u.phase.1.inside) else none

/-- Between the result of a provider and its save no event fails to be appended, and a save that
raises has stored the payment. -/
def Durable (s : WorkersState) (l : WorkersLabel) : Prop :=
  ∀ t T x stored, s.tasks t = some T → charge T = .charged →
    l = .enter t (.fail x stored) ∨ l = .resume t (.fail x stored) →
      stored = true ∧ ∀ events, T.code.head ≠ some (.store (.append events))

/-- Only calls that have been made call providers, only with the claim, and the calls for the key
keep their books. -/
structure Account (key : RecordKey) (c : Cluster) (_ : Option Tid) (st : Phases) : Prop where
  heard : ∀ x ∈ c.shared.log, ∀ t, Charges.calls x = some t → st t ≠ none
  unbegun : ∀ {t u}, st t = some u → u.phase.1 = .fresh → u.phase.2 = .fresh
  books : Books key (c.world 0) (owing key st)

section Books

variable {key : RecordKey} {f : Charges.Stages} {t : Tid} {w w' : World}

theorem books_shared (books : Books key w f) (shared : w'.shared = w.shared) :
    Books key w' f := by
  refine books.silent ?_ fun has => ?_
  · simp only [World.log, shared]
  · rw [Has, World.store, shared]
    exact has

theorem books_revive (books : Books key w f) (hf : f t = some (.fresh, true))
    (idle : ∀ u g, f u ≠ some (g, false)) :
    Books key w (Function.update f t (some (.fresh, false))) where
  kept := fun hu => by
    obtain ⟨-, same⟩ | ⟨-, hu⟩ := update_cases hu
    · cases same
    · exact books.kept hu
  paid := fun hx hc hu => by
    obtain ⟨rfl, same⟩ | ⟨-, hu⟩ := update_cases hu
    · obtain has | charged := books.paid hx hc hf
      · exact .inl has
      · cases charged
    · exact books.paid hx hc hu
  settled := fun hu => by
    obtain ⟨-, same⟩ | ⟨-, hu⟩ := update_cases hu
    · cases same
    · exact books.settled hu
  single := fun hu hv => by
    obtain ⟨rfl, -⟩ | ⟨-, first⟩ := update_cases hu
    · obtain ⟨rfl, -⟩ | ⟨-, second⟩ := update_cases hv
      · rfl
      · exact absurd second (idle _ _)
    · exact absurd first (idle _ _)
  alone := fun hx hc hu hv late => by
    obtain ⟨rfl, same⟩ | ⟨-, hv⟩ := update_cases hv
    · exact absurd (congrArg Prod.fst same).symm late
    · exact absurd hv (idle _ _)
  once := books.once.imp fun both t' u' hc hs ht hu =>
    both t' u' hc hs (Charges.isSome_update (by rw [hf]; rfl) ht)
      (Charges.isSome_update (by rw [hf]; rfl) hu)

theorem owing_update (st : Phases) {data : PaymentInput} (asked : data.key = key)
    (g : Stage × Charges.Stage) (b : Bool) :
    owing key (Function.update st t (some ⟨data, g, b⟩)) =
      Function.update (owing key st) t (some (g.2, !g.1.inside)) := by
  funext u
  by_cases hu : u = t
  · subst hu
    simp [owing, asked]
  · simp [owing, hu]

theorem owing_other (st : Phases) {data : PaymentInput} (unasked : data.key ≠ key)
    (g : Stage × Charges.Stage) (b : Bool) (before : ∀ u, st t = some u → u.call.key ≠ key) :
    owing key (Function.update st t (some ⟨data, g, b⟩)) = owing key st := by
  funext u
  by_cases hu : u = t
  · subst hu
    cases h : st u with
    | none => simp [owing, unasked, h]
    | some x => simp [owing, unasked, h, before x h]
  · simp [owing, hu]

end Books

section Step

variable {cfg : Config} {ttl : ℕ} {profile : Profile} {worker : Tid → ℕ} {key : RecordKey}
  {s : WorkersState} {l : WorkersLabel} {t : Tid} {T : WorkersTask} {e : Effect} {c : Cluster}

theorem next_inside {g : Stage} {r : e.Reply} (he : ∀ a, e ≠ .redis a) :
    (next g e r).inside = g.inside := by
  rw [next_other he]

theorem next_begun {q : Entry} {g : Stage} {r : e.Reply} (hok : ok q g e) :
    next g e r ≠ .fresh := by
  cases g with
  | fresh =>
    cases e with
    | redis a =>
      cases a with
      | claim redisKey fingerprint ttl =>
        obtain x | ⟨status, paymentId⟩ := r
        · nofun
        · cases status <;> nofun
      | _ => exact hok.elim
    | _ => exact hok.elim
  | _ =>
    cases e with
    | redis a => cases a <;> nofun
    | _ => nofun

theorem idle_of_outside {q : Entry} {g : Stage} (hok : ok q g e) (outside : g.inside = false) :
    (Charges.idle e ∨ e.coordinating) ∧ Charges.uncalled e := by
  cases g with
  | fresh =>
    cases e with
    | redis a => exact ⟨.inr trivial, trivial⟩
    | _ => exact hok.elim
  | settled =>
    cases e with
    | store a =>
      cases a with
      | get id => exact ⟨.inl trivial, trivial⟩
      | _ => exact hok.elim
    | redis a => exact ⟨.inr trivial, trivial⟩
    | _ => exact hok.elim
  | _ => cases outside

theorem charge_may {r : e.Reply} {s' : ServiceState} {l' : ServiceLabel} {w : World}
    (durable : Durable s l) (task : s.tasks t = some T) (head : T.code.head = some e)
    (same : Same t l' l)
    (h : Delivered (system (onRedis cfg ttl) profile) s' l' t e (.reply r w)) :
    Charges.may (charge T) e r := by
  cases e with
  | store e =>
    cases e with
    | append events =>
      cases r with
      | ok _ => trivial
      | error x =>
        obtain ⟨stored, failing⟩ := store_raised rfl h
        have failing' := failing.imp (same _).1 (same _).2
        exact fun charged => (durable t T x stored task charged failing').2 events head
    | _ => trivial
  | _ => trivial

variable {data : PaymentInput} {g : Stage} {h : Charges.Stage} {r : e.Reply} {st : Phases}

theorem books_step {s' : ServiceState} {l' : ServiceLabel} {w : World} {q : Entry}
    {f : Charges.Stages} (books : Books key s'.world f) (hf : f t = some (h, !g.inside))
    (unbegun : g = .fresh → h = .fresh) (hok : ok q g e) (charged : Charges.ok key h e)
    (idle : (next g e r).inside = true → g.inside = false → ∀ u i, f u ≠ some (i, false))
    (stored : h = .charged → ∀ x stored,
      l' = .enter t (.fail x stored) ∨ l' = .resume t (.fail x stored) → stored = true)
    (delivered : Delivered (system (onRedis cfg ttl) profile) s' l' t e (.reply r w)) :
    Books key w (Function.update f t (some (Charges.next h e r, !(next g e r).inside))) := by
  by_cases inside : g.inside = true
  · rw [inside] at hf
    refine Charges.books_reply books delivered hf (fun ended => ?_) charged stored
    have left : ∃ a, e = .redis a := by
      by_contra other
      rw [next_inside fun a ha => other ⟨a, ha⟩, inside] at ended
      cases ended
    obtain ⟨a, rfl⟩ := left
    exact charged
  · rw [Bool.not_eq_true] at inside
    obtain ⟨plain, uncalled⟩ := idle_of_outside hok inside
    rw [Charges.idle_next plain]
    rw [inside] at hf
    apply Charges.books_uncalled _ delivered uncalled
    by_cases begins : (next g e r).inside = true
    · have fresh : g = .fresh := by
        cases g with
        | fresh => rfl
        | settled =>
          cases e with
          | redis a => cases a <;> cases begins
          | _ => cases begins
        | _ => cases inside
      rw [begins, unbegun fresh]
      exact books_revive books (unbegun fresh ▸ hf) (idle begins inside)
    · rw [Bool.not_eq_true] at begins
      rwa [begins, ← show f t = some (h, !false) from hf, Function.update_eq_self]

end Step

theorem owing_inside {cfg : Config} {key : RecordKey} {s : WorkersState} {u : Tid}
    {i : Charges.Stage}
    (hu : owing key (((discipline cfg).both (charging key)).statuses s) u = some (i, false)) :
    ∃ U, s.tasks u = some U ∧ U.call.key = key ∧ (stage U).inside = true := by
  obtain ⟨x, hx, asked⟩ := Option.bind_eq_some_iff.mp hu
  obtain ⟨U, task, rfl⟩ := ((discipline cfg).both (charging key)).statuses_some hx
  rw [Discipline.status, (discipline cfg).phase_both] at asked
  split at asked
  · rename_i keyed
    refine ⟨U, task, keyed, ?_⟩
    have working : (!(stage U).inside) = false := congrArg Prod.snd (Option.some.inj asked)
    simpa using working
  · cases asked

section Joins

variable {cfg : Config} {ttl : ℕ} {profile : Profile} {worker : Tid → ℕ} {key : RecordKey}

theorem joins (cfg : Config) (ttl : ℕ) (profile : Profile) (worker : Tid → ℕ) (key : RecordKey) :
    Joins (workers (onRedis cfg ttl) profile worker)
      (fun s l => Lasting cfg.sha256 s ∧ Durable s l) (discipline cfg) (charging key) (Inv cfg)
      (Account key) where
  follows := charging_follows (onRedis cfg ttl) key
  call := fun {s t data b v} _ account new _ => by
    constructor
    · intro x hx u hu
      by_cases same : u = t
      · subst same
        simp
      · rw [Function.update_of_ne same]
        exact account.heard x hx u hu
    · intro u x hx fresh
      obtain ⟨-, rfl⟩ | ⟨-, hx⟩ := update_cases hx
      · rfl
      · exact account.unbegun hx fresh
    · by_cases asked : data.key = key
      · rw [owing_update _ asked]
        refine account.books.spawn (by simp [owing, new]) ?_ nofun
        exact fun x hx called => account.heard x hx t called new
      · rw [owing_other _ asked _ _ (by simp [new])]
        exact account.books
  reply := fun {s l t data g h e r c} meets base account ht hok charged delivered may => by
    obtain ⟨s', l', w, hs, rfl, alone, same⟩ := reply_alone delivered
    obtain ⟨T, task, status⟩ := ((discipline cfg).both (charging key)).statuses_some ht
    obtain rfl : T.call = data := congrArg Status.call status
    have phases := congrArg Status.phase status
    rw [Discipline.status, (discipline cfg).phase_both] at phases
    obtain ⟨rfl, rfl⟩ : stage T = g ∧ charge T = h := Prod.mk.inj phases
    obtain ⟨T', task', head⟩ := delivered.reached
    obtain rfl := Option.some.inj (task.symm.trans task')
    refine ⟨fun _ => charge_may meets.2 task head same alone, fun b v _ based => ?_⟩
    obtain ⟨new, own, log⟩ := Charges.log_reply alone
    have books : Books key s'.world (owing key
        (((discipline cfg).both (charging key)).statuses s)) :=
      books_shared account.books (by rw [hs]; rfl)
    have before : owing key (((discipline cfg).both (charging key)).statuses s) t =
        if T.call.key = key then some (charge T, !(stage T).inside) else none := by
      rw [owing, ht, Option.bind_some]
    constructor
    · intro x hx u hu
      by_cases self : u = t
      · subst self
        simp
      · rw [Function.update_of_ne self]
        have hx' : x ∈ w.log := hx
        rw [log] at hx'
        obtain hx' | hx' := List.mem_append.mp hx'
        · exact absurd (own x hx' u hu) self
        · rw [hs] at hx'
          exact account.heard x hx' u hu
    · intro u x hx fresh
      obtain ⟨-, rfl⟩ | ⟨-, hx⟩ := update_cases hx
      · exact absurd fresh (next_begun hok)
      · exact account.unbegun hx fresh
    · by_cases asked : T.call.key = key
      · rw [owing_update _ asked]
        rw [if_pos asked] at before
        refine books_shared (books_step books before (account.unbegun ht) hok (charged asked) ?_
          ?_ alone) rfl
        · intro begins outside u i hu
          obtain ⟨U, taskU, keyed, working⟩ := owing_inside hu
          have other : u ≠ t := by
            rintro rfl
            obtain rfl := Option.some.inj (task.symm.trans taskU)
            cases outside.symm.trans working
          have entered : calls cfg.sha256 (Function.update ((discipline cfg).statuses s) t
              (some ⟨T.call, next (stage T) e r, b⟩)) u =
                some (entryOf cfg.sha256 U.call, stage U) := by
            rw [calls, Function.update_of_ne other, (discipline cfg).statuses_of_task taskU]
            rfl
          have own : calls cfg.sha256 (Function.update ((discipline cfg).statuses s) t
              (some ⟨T.call, next (stage T) e r, b⟩)) t =
                some (entryOf cfg.sha256 T.call, next (stage T) e r) := by
            rw [calls, Function.update_self, Option.map_some]
          exact other (Held.single based entered own working begins
            (congrArg (redisKey cfg.sha256) (keyed.trans asked.symm)))
        · intro charged x stored failing
          exact (meets.2 t T x stored task charged
            (failing.imp (same _).1 (same _).2)).1
      · rw [owing_other _ asked]
        · rw [if_neg asked] at before
          exact books_shared (Charges.books_other books alone before) rfl
        · intro u hu
          obtain rfl := Option.some.inj (ht.symm.trans hu)
          exact asked
  wait := fun {s l t data g h e c} _ account _ _ _ delivered => by
    obtain ⟨s', l', w, hs, rfl, alone, -⟩ := wait_alone delivered
    obtain ⟨log, store⟩ := Charges.wait_same alone
    rw [hs] at log store
    refine ⟨?_, account.unbegun, ?_⟩
    · intro x hx
      have hx' : x ∈ w.log := hx
      rw [log] at hx'
      exact account.heard x hx'
    · exact account.books.silent log fun has => by
        rw [Has] at has ⊢
        exact store ▸ has
  outside := fun {s a c} _ account moved => by
    obtain ⟨w, applied, rfl⟩ := outside_alone moved
    have frame := outside_frame applied
    refine ⟨?_, account.unbegun, ?_⟩
    · intro x hx
      have hx' : x ∈ w.log := hx
      rw [frame.log] at hx'
      exact account.heard x hx'
    · exact account.books.silent frame.log fun has => by
        rw [Has] at has ⊢
        exact frame.store ▸ has

end Joins

section Run

/-- At most one call for a key has got a result of a provider. -/
def ChargedByOne (s : WorkersState) : Prop :=
  ∀ x ∈ s.world.shared.log, ∀ y ∈ s.world.shared.log, ∀ t u T U, Charges.charges x = some t →
    Charges.charges y = some u → s.tasks t = some T → s.tasks u = some U →
    T.call.key = U.call.key → t = u

theorem account_empty {key : RecordKey} {c : Cluster} (silent : c.shared.log = []) :
    Account key c none fun _ => none := by
  refine ⟨?_, nofun, ⟨nofun, ?_, nofun, nofun, ?_, ?_⟩⟩
  · rw [silent]
    nofun
  · exact fun _ _ hu => by cases hu
  · exact fun _ _ hu => by cases hu
  · have log : (c.world 0).log = [] := silent
    rw [log]
    exact .nil

theorem Books.charged {key : RecordKey} {w : World} {f : Charges.Stages} (books : Books key w f) :
    ∀ ⦃x⦄, x ∈ w.log → ∀ ⦃y⦄, y ∈ w.log → ∀ t u, Charges.charges x = some t →
      Charges.charges y = some u → (f t).isSome → (f u).isSome → t = u := by
  apply List.Pairwise.forall_of_forall_of_flip
  · intro x _ t u ht hu _ _
    exact Option.some.inj (ht.symm.trans hu)
  · refine books.once.imp fun both t u ht hu known known' => ?_
    exact both u t hu (Charges.calls_of_charges ht) known' known
  · refine books.once.imp fun both t u ht hu known known' => ?_
    exact (both t u ht (Charges.calls_of_charges hu) known known').symm

/-- While the entries of the calls at work last, at most one call for a key is at work; when no
result of a provider is lost before it is saved, at most one gets such a result. -/
theorem one_at_work (cfg : Config) (ttl : ℕ) (profile : Profile) (worker : Tid → ℕ) (c : Cluster)
    (s : WorkersState) :
    (Reaches (workers (onRedis cfg ttl) profile worker) (fun s _ => Lasting cfg.sha256 s)
      (.empty c) s → Exclusive s) ∧
    (c.shared.log = [] → Reaches (workers (onRedis cfg ttl) profile worker)
      (fun s l => Lasting cfg.sha256 s ∧ Durable s l) (.empty c) s → ChargedByOne s) := by
  have M := maintains cfg ttl profile worker
  constructor
  · intro h
    exact exclusive_of_held cfg (M.reaches_empty (held_empty _) h).2
  · intro silent h x hx y hy t u T U charged charged' task task' same
    have both := (joins cfg ttl profile worker U.call.key).maintains M fun _ _ meets => meets.1
    obtain ⟨-, -, account⟩ := both.reaches_empty ⟨held_empty _, account_empty silent⟩ h
    have known {v : Tid} {V : WorkersTask} (hv : s.tasks v = some V)
        (keyed : V.call.key = U.call.key) : (owing U.call.key
          (((discipline cfg).both (charging U.call.key)).statuses s) v).isSome := by
      have asked : (((discipline cfg).both (charging U.call.key)).status V).call.key =
          U.call.key := keyed
      rw [owing, Discipline.statuses_of_task _ hv, Option.bind_some, if_pos asked]
      rfl
    exact Books.charged account.books hx hy t u charged charged' (known task same)
      (known task' rfl)

def onWorkers (ls : List ServiceLabel) : List WorkersLabel :=
  ls.filterMap fun l => match l with
    | .call t (.create data) => some (.call t data)
    | .enter t i => some (.enter t i)
    | .resume t i => some (.resume t i)
    | _ => none

def command (t : Tid) : List WorkersLabel := [.enter t .suspend, .resume t .go]

def claims (t : Tid) (data : PaymentInput) : List WorkersLabel := .call t data :: command t

def pays (t : Tid) : List WorkersLabel :=
  onWorkers ([.enter t .go, .enter t .go, .enter t (.at 0), .enter t (.at 0), .enter t .suspend,
    .resume t (.healthy (.ok true)), .enter t (.pick 0)] ++ ask t 0 ++ start t)

def paid (t : Tid) : List WorkersLabel :=
  onWorkers (returns t "reference" ++ recordSuccess t 0 ++ (List.replicate 3 (event t 0)).flatten)

def lasting (ts : List Tid) (s : WorkersState) : Bool :=
  ts.all fun t => (s.tasks t).all fun T => !(stage T).inside ||
    (s.world.shared.redis.hashes (redisKey String.ofList T.call.key)).all
      fun hash => !s.world.shared.redis.expired hash

theorem lasting_meets {ts : List Tid} {s : WorkersState}
    (known : ∀ t, s.tasks t ≠ none → t ∈ ts) (h : lasting ts s = true) :
    Lasting String.ofList s := by
  rintro t _ ⟨T, task, rfl, inside⟩ hash found
  have one := List.all_eq_true.mp h t (known t (by simp [task]))
  simpa [task, inside, found] using one

def unfailing : WorkersLabel → Bool
  | .enter _ (.fail _ _) => false
  | .resume _ (.fail _ _) => false
  | _ => true

theorem unfailing_meets {s : WorkersState} {l : WorkersLabel} (h : unfailing l = true) :
    Durable s l := by
  rintro t T x stored - - (rfl | rfl) <;> cases h

/-- Workers of one provider, each with a process of its own, over one store and one Redis. -/
def team (storage : Backend) : System Tid PaymentInput Effect Effect.Reply (Except Exn Payment)
    Input (ℕ × Outside) Cluster :=
  workers (onRedis (service ["stripe"] 1) 90) { storage } id

def started : WorkersState := .empty ⟨fun _ => Process.initial fragile [], Shared.initial⟩

/-- The second call waits for the first one, and then reads its result. -/
def waitedRun : List WorkersLabel :=
  claims 0 (card "a") ++ pays 0 ++ claims 1 (card "a") ++ [.outside (0, .tick 89)] ++ paid 0 ++
  [.enter 0 .go] ++ command 0 ++ [.enter 0 .suspend, .resume 1 .go, .enter 1 .go, .resume 0 .go]

theorem one_at_work_waited : ∃ s ∈ run (team .memory) waitedRun started,
    s.world.shared.log.filterMap Charges.charges = [0] ∧ (∀ t ∈ [0, 1], s.ended t = true) ∧
      Exclusive s ∧ ChargedByOne s := by
  have h : ∃ s ∈ runWhile (team .memory) (fun s l => lasting [0, 1] s = true ∧ unfailing l = true)
      waitedRun started, s.world.shared.log.filterMap Charges.charges = [0] ∧
        ∀ t ∈ [0, 1], s.ended t = true := by
    decide +kernel
  obtain ⟨s, moved, charged, ended⟩ := h
  have reached : Reaches (team .memory) (fun s l => Lasting String.ofList s ∧ Durable s l)
      started s :=
    runWhile_within _
      (fun _ _ known meets => ⟨lasting_meets known meets.1, unfailing_meets meets.2⟩)
      (fun _ task => absurd rfl task) (by decide) moved
  obtain ⟨exclusive, charging⟩ := one_at_work (service ["stripe"] 1) 90 { storage := .memory } id
    ⟨fun _ => Process.initial fragile [], Shared.initial⟩ s
  exact ⟨s, runWhile_run _ moved, charged, ended,
    exclusive (reached.mono fun _ _ meets => meets.1), charging rfl reached⟩

/-- The first call waits for its provider until its entry is gone, and the second one gets the
claim as well. -/
def overlapRun : List WorkersLabel :=
  claims 0 (card "a") ++ pays 0 ++ [.outside (0, .tick 90)] ++ claims 1 (card "a") ++ pays 1 ++
  paid 0 ++ [.enter 0 .go, .enter 0 .suspend] ++ paid 1

/-- The first call loses the result of its provider, gives its claim up, and the second one gets
another result. -/
def lostRun : List WorkersLabel :=
  claims 0 (card "a") ++ pays 0 ++ paid 0 ++
  [.enter 0 (.fail (.other "connection lost") false)] ++ command 0 ++ command 0 ++
  claims 1 (card "a") ++ pays 1 ++ paid 1

theorem charged_by_two {s : WorkersState} {T U : WorkersTask}
    (charged : s.world.shared.log.filterMap Charges.charges = [1, 0])
    (task : s.tasks 0 = some T) (task' : s.tasks 1 = some U) (same : T.call = U.call) :
    ¬ ChargedByOne s := by
  intro one
  obtain ⟨x, hx, first⟩ := List.mem_filterMap.mp (charged ▸ (by decide : 0 ∈ [1, 0]))
  obtain ⟨y, hy, second⟩ := List.mem_filterMap.mp (charged ▸ (by decide : 1 ∈ [1, 0]))
  cases one x hx y hy 0 1 T U first second task task' (congrArg PaymentInput.key same)

theorem two_at_work :
    (¬ ∀ s, Reaches (team .memory) (fun _ _ => True) started s → Exclusive s) ∧
    (¬ ∀ s, Reaches (team .memory) (fun _ _ => True) started s → ChargedByOne s) ∧
    ¬ ∀ s, Reaches (team .external) (fun s _ => Lasting String.ofList s) started s →
      ChargedByOne s := by
  have overlap : ∃ s ∈ runWhile (team .memory) (fun _ _ => True) overlapRun started,
      (∃ T ∈ s.tasks 0, T.call = card "a" ∧ (stage T).inside = true) ∧
      (∃ T ∈ s.tasks 1, T.call = card "a" ∧ (stage T).inside = true) ∧
      s.world.shared.log.filterMap Charges.charges = [1, 0] := by
    decide +kernel
  have lost : ∃ s ∈ runWhile (team .external) (fun s _ => lasting [0, 1] s = true) lostRun started,
      (∃ T ∈ s.tasks 0, T.call = card "a") ∧ (∃ T ∈ s.tasks 1, T.call = card "a") ∧
      s.world.shared.log.filterMap Charges.charges = [1, 0] := by
    decide +kernel
  obtain ⟨s, moved, ⟨T, task, call, inside⟩, ⟨U, task', call', inside'⟩, charged⟩ := overlap
  refine ⟨fun exclusive => ?_, fun one => ?_, fun one => ?_⟩
  · have same := exclusive s (runWhile_reaches _ moved) 0 1 _ _ ⟨T, task, call, inside⟩
      ⟨U, task', call', inside'⟩ rfl
    cases same
  · exact charged_by_two charged task task' (call.trans call'.symm)
      (one s (runWhile_reaches _ moved))
  · obtain ⟨s, moved, ⟨T, task, call⟩, ⟨U, task', call'⟩, charged⟩ := lost
    refine charged_by_two charged task task' (call.trans call'.symm) (one s ?_)
    exact runWhile_within _ (fun _ _ known meets => lasting_meets known meets)
      (fun _ task => absurd rfl task) (by decide) moved

end Run

end PySwitch.Lease
