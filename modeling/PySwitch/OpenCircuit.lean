import PySwitch.PermitInvariant

namespace PySwitch.OpenCircuit

open Async CircuitHistory Permit Scenario

/-- A waiter is given its slot only if the circuit has not opened since its permit. -/
def Prompt (s : ServiceState) (l : ServiceLabel) : Prop :=
  ∀ t p n, l = .resume t .go → s.At t (.semaphore (.acquire p n)) →
    overtaken t p s.world.log = false

/-- The circuit of a running call that is about to start is not open. -/
def Ready (w : World) (running : Option Tid) (st : Statuses) : Prop :=
  ∀ {t u p state}, st t = some u → u.phase = .permitted p state → running = some t →
    (w.circuit p).state ≠ .opened

theorem next_permitted {g : Stage} {e : Effect} {r : e.Reply} (he : ∀ c, e ≠ .circuit c)
    {p : Provider} {state : CircuitState} (h : next g e r = .permitted p state) :
    g = .permitted p state := by
  unfold next at h
  split at h <;> first | exact h | cases h | exact absurd rfl (he _)

section Step

variable {cfg : Config} {profile : Profile} {s : ServiceState} {l : ServiceLabel} {t : Tid}
  {c : Call} {g : Stage} {e : Effect} {r : e.Reply} {w : World} {p : Provider}
  {state : CircuitState}

/-- A task with a permit that keeps it suspends only in the queue of a semaphore. -/
theorem resumed_permitted {i : Input} (hok : ok (.permitted p state) e)
    (h : e.resume profile t i s.world = .reply r w)
    (hn : next (.permitted p state) e r = .permitted p state) :
    i = .go ∧ ∃ n, e = .semaphore (.acquire p n) := by
  obtain rfl | ⟨a, rfl⟩ | ⟨q, rfl⟩ | ⟨n, rfl⟩ | ⟨_, _, _, _, rfl⟩ := ok_permitted hok
  · cases i <;> cases h
  · cases h
  · cases h
  · refine ⟨?_, n, rfl⟩
    cases r with
    | error x => cases hn
    | ok _ =>
      obtain ⟨_, hq, -⟩ := Answer.lift_reply h
      obtain ⟨_, hm, -⟩ := Answer.lift_reply hq
      cases i <;> first | rfl | cases hm
  · cases h

theorem ready_reply (meets : Prompt s l) (base : Inv s.world s.running (discipline.statuses s))
    (ready : Ready s.world s.running (discipline.statuses s))
    (ht : discipline.statuses s t = some ⟨c, g, false⟩) (hok : ok g e)
    (h : Delivered (system cfg profile) s l t e (.reply r w))
    (hn : next g e r = .permitted p state) (after : Standing w t p state) :
    (w.circuit p).state ≠ .opened := by
  obtain ⟨a, rfl⟩ | he := not_circuit_or e
  · have hp : (next g (.circuit a) r).permit = some (p, state) := by rw [hn]; rfl
    exact (after.valid (circuit_permit h hok hp).2.2.2).1
  · obtain rfl := next_permitted he hn
    have same : w.circuit p = s.world.circuit p := congrFun ((reply_touches h).circuits he) p
    rw [same]
    obtain ⟨i, -, running, -⟩ | ⟨i, rfl, -, ha⟩ := h.answer
    · exact ready ht rfl running
    · obtain ⟨rfl, n, rfl⟩ := resumed_permitted hok ha.symm hn
      exact ((base.standing ht rfl).valid (meets t p n rfl h.reached)).1

end Step

theorem ready_extends (cfg : Config) (profile : Profile) :
    Extends (system cfg profile) Prompt discipline Inv Ready where
  call := fun {s t c b v} _ ready new hg u x p state hu hp running => by
    obtain ⟨rfl, rfl⟩ | ⟨hne, hu⟩ := update_cases hu
    · cases c <;> cases hp
    · cases hg with
      | on => exact absurd (Option.some.inj running).symm hne
      | ended => cases running
  reply := fun {s l t c g e r w} meets base ready ht hok h b v hg base' u x p state hu hp running => by
    obtain ⟨rfl, rfl⟩ | ⟨hne, hu⟩ := update_cases hu
    · exact ready_reply meets base ready ht hok h hp (base'.standing hu (by rw [hp]; rfl))
    · cases hg with
      | on => exact absurd (Option.some.inj running).symm hne
      | ended => cases running
  wait := fun _ _ _ _ _ _ _ _ _ _ _ _ running => by cases running
  outside := fun _ _ _ _ _ _ _ _ _ running => by cases running

/-- No call to a provider starts while the provider's circuit is open, in a run in which no
waiter is given its slot after the circuit has opened since its permit. -/
theorem started_not_opened (cfg : Config) (profile : Profile) (w : World) {s : ServiceState}
    (h : Reaches (system cfg profile) Prompt (.empty w) s) {t : Tid} {p : Provider}
    {paymentId : Uuid} {amount : ℤ} {currency token : String} (running : s.running = some t)
    (starting : s.At t (.provider (.startPayment p paymentId amount currency token))) :
    (s.world.circuit p).state ≠ .opened := by
  have first : Inv w none (fun _ => none) ∧ Ready w none (fun _ => none) :=
    ⟨⟨nofun, nofun⟩, nofun⟩
  obtain ⟨kept, -, ready⟩ :=
    ((ready_extends cfg profile).maintains (maintains cfg profile) fun _ _ _ => trivial).reaches_empty first h
  obtain ⟨T, task, head⟩ := starting
  have follows := kept t T task
  obtain ⟨call, code, trace⟩ := T
  cases code with
  | done a => cases head
  | perform e k =>
    cases head
    have hok := follows.1
    generalize hg : discipline.phase ⟨call, _, trace⟩ = g at hok
    cases g with
    | permitted q state =>
      obtain rfl : p = q := hok
      exact ready (discipline.statuses_of_task task) hg running
    | _ => exact hok.elim

/-- A payment fails and opens the circuit, which is reset. Then two payments share one slot, and
the second one waits for it until the first one is paid. -/
def sharedRun : List ServiceLabel :=
  create 0 0 (card "a") 1 ++ ask 0 0 ++ [.enter 0 .go] ++ start 0 ++ raises 0 unavailable ++
  [.enter 0 .go] ++ recordFailure 0 1 ++ event 0 1 ++ [.enter 0 .go] ++
  [.enter 0 .go, .enter 0 (.at 1)] ++ finish 0 1 ++
  [.call 1 (.recover "stripe"), .enter 1 .go] ++ event 1 2 ++ [.enter 1 .go] ++
  create 2 2 (card "b") 1 ++ ask 2 2 ++ [.enter 2 .go] ++ start 2 ++
  create 3 2 (card "c") 1 ++ ask 3 2 ++ [.enter 3 .go] ++
  returns 2 "reference" ++ [.enter 2 .go] ++ recordSuccess 2 2 ++ finish 2 2

/-- A waiter is woken. -/
def wakes : ServiceLabel → Bool
  | .resume _ .go => true
  | _ => false

theorem started_not_opened_queued : ∃ s : ServiceState, s.running = some 3 ∧
    s.At 3 (.provider (.startPayment "stripe" 7 100 "EUR" "token")) ∧
    (∃ t, .transition t "stripe" .closed .opened ∈ s.world.log) ∧
    (s.world.circuit "stripe").state ≠ .opened := by
  have h : ∃ s ∈ run (system (service ["stripe"] 1) {}) sharedRun
      (.empty (.initial fragile [("stripe", 1)])),
      s.At 3 (.semaphore (.acquire "stripe" 0)) ∧ overtaken 3 "stripe" s.world.log = false ∧
      ∃ s' ∈ step (system (service ["stripe"] 1) {}) (.resume 3 .go) s, s'.running = some 3 ∧
        s'.At 3 (.provider (.startPayment "stripe" 7 100 "EUR" "token")) ∧
        .transition 0 "stripe" .closed .opened ∈ s'.world.log := by
    decide +kernel
  obtain ⟨s, moved, queued, current, s', resumed, running, starting, opened⟩ := h
  have sleeps : ∀ l ∈ sharedRun, wakes l = false := by decide
  have meets : ∀ l ∈ sharedRun, ∀ s, Prompt s l := by
    rintro l hl s t p n rfl
    cases sleeps _ hl
  have handed : Prompt s (.resume 3 .go) := by
    intro t p n same reached
    obtain ⟨rfl, -⟩ := Label.resume.inj same
    obtain ⟨rfl, -⟩ : "stripe" = p ∧ 0 = n := by simpa using queued.unique reached
    exact current
  exact ⟨s', running, starting, ⟨0, opened⟩, started_not_opened _ _ _
    ((run_reaches _ (throughout_of_forall _ meets _) moved).tail handed resumed) running starting⟩

/-- Two calls share one slot. The first one fails and opens the circuit, the second one is
let in all the same. -/
def queuedRun : List ServiceLabel :=
  create 0 0 (card "a") 1 ++ ask 0 0 ++ [.enter 0 .go] ++ start 0 ++
  create 1 0 (card "b") 1 ++ ask 1 0 ++ [.enter 1 .go] ++
  raises 0 unavailable ++ [.enter 0 .go] ++ recordFailure 0 1 ++ event 0 1 ++ [.enter 0 .go] ++
  [.enter 0 .go, .enter 0 (.at 1)] ++ finish 0 1 ++ [.resume 1 .go]

theorem queued_call_starts_opened :
    ∃ s ∈ run (system (service ["stripe"] 1) {}) queuedRun
      (.empty (.initial fragile [("stripe", 1)])),
    s.running = some 1 ∧ s.At 1 (.provider (.startPayment "stripe" 1 100 "EUR" "token")) ∧
    (s.world.circuit "stripe").state = .opened := by
  decide +kernel

end PySwitch.OpenCircuit
