import PySwitch.VisitInvariant

namespace PySwitch.Visits

open Async Service

/-- Whether calls were made since the last payment was saved. -/
def unsavedAfter : Effect → Bool → Bool
  | .provider (.startPayment _ _ _ _ _), _ => true
  | .store (.save _), _ => false
  | .store (.saveWithEvents _ _), _ => false
  | _, before => before

def unsaved (trace : List ((e : Effect) × e.Reply)) : Bool :=
  trace.foldl (fun before ev => unsavedAfter ev.1 before) false

/-- No task is interrupted between a call for a payment and the end of its work on it, and no
delay between two calls is too large for a `float`. -/
structure Intact (cfg : Config) (s : ServiceState) (l : ServiceLabel) : Prop where
  whole : ∀ t T, s.tasks t = some T → unsaved T.trace = true → interrupted l ≠ some t
  fits : Fits cfg s l

def Stage.charged (g : Stage) : Prop := ∃ provider, g.callsTo provider ≠ 0

theorem Stage.Continues.charged {g g' : Stage} {id : Uuid} {plan : List Provider}
    (h : g'.Continues id g.callsTo plan) (made : g'.charged) : g.charged := by
  obtain ⟨p, hp⟩ := made
  exact ⟨p, h.calls p ▸ hp⟩

/-- Only a new call makes a charged stage of one that is not, and saving the payment ends it. -/
theorem charged_kept {profile : Profile} {cfg : Config} {g : Stage}
    {trace : List ((e : Effect) × e.Reply)} {e : Effect} {r : e.Reply}
    (before : g.charged → unsaved trace = true) (hok : ok profile cfg g e)
    (made : (next cfg g e r).charged) : unsaved (trace ++ [⟨e, r⟩]) = true := by
  have after : unsaved (trace ++ [⟨e, r⟩]) = unsavedAfter e (unsaved trace) := by
    simp [unsaved]
  have kept {g' : Stage} (he : unsavedAfter e (unsaved trace) = unsaved trace)
      (hn : next cfg g e r = g') (hg : g'.charged → g.charged) :
      unsaved (trace ++ [⟨e, r⟩]) = true := by
    rw [after, he]
    exact before (hg (hn ▸ made))
  have rest {g' : Stage} (hg : ∀ p, g'.callsTo p = 0) : g'.charged → g.charged :=
    fun ⟨p, hp⟩ => absurd (hg p) hp
  cases e with
  | host e =>
    cases e with
    | uuid4 =>
      refine kept rfl rfl ?_
      cases g <;> exact id
    | sleep delay =>
      cases r with
      | ok => exact kept rfl rfl id
      | error x =>
        refine kept rfl rfl ?_
        cases g <;> first | exact id | exact rest fun _ => rfl
    | _ => exact kept rfl rfl id
  | circuit e =>
    cases e with
    | allowRequest p =>
      obtain ⟨d, rfl, rfl⟩ := hok
      obtain ⟨allowed, previous, current⟩ := r
      cases allowed with
      | true => exact kept rfl rfl id
      | false =>
        have further := leave_continues d (by decide : Ending.refused ≠ .returned) "CIRCUIT_OPEN"
        exact kept rfl rfl further.charged
    | _ => exact kept rfl rfl id
  | semaphore e =>
    cases e with
    | acquire p n =>
      cases r with
      | ok => exact kept rfl rfl id
      | error x =>
        refine kept rfl rfl ?_
        cases g <;> first | exact id | exact rest fun _ => rfl
    | _ => exact kept rfl rfl id
  | provider e =>
    cases e with
    | choose healthy =>
      obtain ⟨⟨id, rfl⟩, -⟩ := hok
      cases r with
      | error x => exact kept rfl rfl (rest fun _ => rfl)
      | ok p =>
        exact kept rfl rfl
          (rest (visit_continues id [] (p :: healthy.filter fun q => q ≠ p)).calls)
    | startPayment p id amount currency token => exact after
    | finishPayment p id =>
      obtain ⟨d, rfl, rfl, rfl⟩ := hok
      exact kept rfl rfl fun _ => ⟨d.provider, by simp [Stage.callsTo]⟩
    | _ => exact kept rfl rfl id
  | store e =>
    cases e with
    | get id =>
      cases r with
      | error x => exact kept rfl rfl fun h => h
      | ok found =>
        cases found with
        | none => exact kept rfl rfl fun h => h
        | some p =>
          refine kept rfl rfl ?_
          cases g <;> exact fun h => h
    | reread p => exact kept rfl rfl (rest fun _ => rfl)
    | save p =>
      obtain ⟨q, hq⟩ := made
      cases g <;> first | exact absurd rfl hq | exact hok.elim
    | saveWithEvents p events =>
      obtain ⟨q, hq⟩ := made
      cases g <;> first | exact absurd rfl hq | exact hok.elim
    | _ => exact kept rfl rfl fun h => h
  | _ => exact kept rfl rfl id

/-- Every call made at a provider stands in the history of a stored payment, once. -/
def Recorded (w : World) : Prop :=
  ∀ id provider n, 0 < n → n ≤ started id provider w.log →
    ∃ p, w.store.payments id = some p ∧ p.attempts.countP (fun a => a.provider = provider ∧ a.attemptNumber = n) = 1

theorem Known.recorded {w : World} {id : Uuid} {p : Payment} (h : Known w id p)
    {provider : Provider} {n : ℕ} (positive : 0 < n) (made : n ≤ started id provider w.log) :
    p.attempts.countP (fun a => a.provider = provider ∧ a.attemptNumber = n) = 1 := by
  obtain ⟨visits, distinct, history, calls⟩ := h
  have count := count_history distinct positive (calls provider ▸ made)
  rw [← show p.attempts.map mark = visits.flatMap Visit.marks from history, List.map_map,
    List.count, List.countP_map] at count
  rw [← count]
  congr 1
  funext a
  rw [Bool.eq_iff_iff]
  simp [Mark.position, mark]

theorem left_callsTo {policy : RetryPolicy} {g : Stage} (left : Left policy g)
    (idle : policy.maxAttempts = 0 → ∀ provider, g.callsTo provider = 0) (provider : Provider) :
    g.callsTo provider = 0 := by
  cases g <;> first | rfl | exact left.elim | exact idle left provider

section Main

variable {cfg : Config} {profile : Profile} {circuit : CircuitBreaker}
  {concurrency : List (Provider × ℕ)} {s : ServiceState}

/-- In a run that interrupts no call with unsaved calls, the stored payments account for every
provider call whenever nothing is running. -/
theorem calls_recorded (memory : profile.storage = .memory)
    (reliable : Ledger.Reliable profile cfg.coordinator) (distinct : cfg.providers.Nodup)
    (h : Reaches (system cfg profile) (Intact cfg) (.empty (.initial circuit concurrency)) s)
    (idle : s.Idle) : Recorded s.world := by
  have traced (u : ServiceState)
      (hu : Reaches (system cfg profile) (Intact cfg) (.empty (.initial circuit concurrency)) u) :
      ∀ t T, u.tasks t = some T → ((discipline profile cfg).phase T).charged →
        unsaved T.trace = true := by
    intro t T task
    have any := hu.mono (D := fun _ _ => True) fun _ _ _ => trivial
    exact (follows_protocol memory reliable).traced
      (J := fun g tr => g.charged → unsaved tr = true) (fun c made => by cases c <;> exact absurd rfl made.choose_spec)
      (fun _ _ _ _ _ before hok _ => charged_kept before hok) trivial any task
  have undisturbed : Reaches (system cfg profile) (Undisturbed profile cfg)
      (.empty (.initial circuit concurrency)) s := by
    refine (h.along traced).mono fun u l ⟨intact, charged⟩ => ⟨fun t x hx made => ?_, intact.fits⟩
    obtain ⟨T, task, rfl⟩ := (discipline profile cfg).statuses_some hx
    exact intact.whole t T task (charged t T task made)
  obtain ⟨kept, inv⟩ := (maintains memory reliable distinct).reaches_empty
    (inv_initial cfg.retryPolicy circuit concurrency) undisturbed
  intro id provider n positive made
  have called : started id provider s.world.log ≠ 0 := by omega
  obtain stored | ⟨t, u, hu, hd⟩ := inv.called called
  · obtain ⟨p, hp⟩ := Option.ne_none_iff_exists'.mp stored
    exact ⟨p, hp, (inv.books.known hp).recorded positive made⟩
  · -- A draft of a call that is over has made no calls.
    have good := inv.good hu
    have calls := (good.draft hd).2.2 provider
    obtain ⟨T, task, rfl⟩ := (discipline profile cfg).statuses_some hu
    obtain ⟨_, left⟩ := kept.ended task (idle t T task)
    exact absurd (calls.trans (left_callsTo left good.idle provider)) called

end Main

section Examples

open Scenario

theorem calls_recorded_paid : ∃ s ∈ run (system (service ["stripe"] 1) {})
    (paidRun 0 0 "a") (.empty (.initial fragile [])), s.Idle ∧
    started 0 "stripe" s.world.log = 1 ∧ Recorded s.world := by
  have h : ∃ s ∈ run (system (service ["stripe"] 1) {}) (paidRun 0 0 "a")
      (.empty (.initial fragile [])), (∀ t ∈ called (paidRun 0 0 "a"), s.ended t = true) ∧
      started 0 "stripe" s.world.log = 1 := by
    decide +kernel
  obtain ⟨s, moved, ended, made⟩ := h
  have quiet : ∀ l ∈ paidRun 0 0 "a", interrupted l = none ∧ failure l = none := by decide
  have meets : ∀ l ∈ paidRun 0 0 "a", ∀ s, Intact (service ["stripe"] 1) s l := by
    refine fun l hl s => ⟨fun t T _ _ broken => ?_, fits_of_unfailed (quiet l hl).2⟩
    cases (quiet l hl).1.symm.trans broken
  have idle : s.Idle := run_idle _ moved ended
  exact ⟨s, moved, idle, made, calls_recorded rfl (Ledger.reliable_direct rfl) (by decide)
    (run_reaches _ (throughout_of_forall _ meets _) moved) idle⟩

/-- The provider raises an exception that is no `ProviderError`, and the claim is given up. -/
def brokenRun : List ServiceLabel :=
  create 0 0 (card "a") 1 ++ ask 0 0 ++ start 0 ++
  [.resume 0 (.outcome (.error (.other "RuntimeError"))), .enter 0 (.at 0), .enter 0 (.at 0),
    .enter 0 .go]

theorem broken_call_unrecorded : ∃ s ∈ run (system (service ["stripe"] 1) {}) brokenRun
    (.empty (.initial fragile [])), s.Idle ∧ ¬ Recorded s.world := by
  have h : ∃ s ∈ run (system (service ["stripe"] 1) {}) brokenRun
      (.empty (.initial fragile [])), (∀ t ∈ called brokenRun, s.ended t = true) ∧
      started 0 "stripe" s.world.log = 1 ∧ s.world.store.payments 0 = none := by
    decide +kernel
  obtain ⟨s, moved, ended, made, unstored⟩ := h
  refine ⟨s, moved, run_idle _ moved ended, fun recorded => ?_⟩
  obtain ⟨p, hp, -⟩ := recorded 0 "stripe" 1 Nat.one_pos made.ge
  cases unstored.symm.trans hp

end Examples

end PySwitch.Visits
