import PySwitch.Answers
import PySwitch.Reference
import PySwitch.RetryCount
import PySwitch.TimeoutProtocol

namespace PySwitch.Timeouts

open Async Scenario
open Retries (steadyCircuit)
open Visits (Stage Draft Trace visit next)

/-- The provider whose payment call has raised a timeout. -/
def timeout : ((e : Effect) × e.Reply) → Option Provider
  | ⟨.provider (.finishPayment p _), .error (.provider error)⟩ =>
    if error.code = "PROVIDER_TIMEOUT" then some p else none
  | _ => none

/-- The provider that is called for a payment. -/
def charged : ((e : Effect) × e.Reply) → Option Provider
  | ⟨.provider (.startPayment p _ _ _ _), _⟩ => some p
  | _ => none

/-- After a timeout of one provider no other provider is called. -/
def Faithful (trace : Trace) : Prop :=
  trace.Pairwise fun x y => ∀ p ∈ timeout x, ∀ q ∈ charged y, q = p

instance (trace : Trace) : Decidable (Faithful trace) :=
  inferInstanceAs (Decidable (trace.Pairwise _))

/-- What the timeouts so far say about the stage of a call: all were those of the provider it
visits, and the visit is not given up for another provider. -/
def Pending (g : Stage) (trace : Trace) : Prop :=
  match g with
  | .ordered => ∀ x ∈ trace, timeout x = none
  | .routing _ => ∀ x ∈ trace, timeout x = none
  | .asking d => ∀ x ∈ trace, ∀ p ∈ timeout x, p = d.provider ∧ (TimedOut d.errors ∨ Alone d)
  | .permitted d => ∀ x ∈ trace, ∀ p ∈ timeout x, p = d.provider ∧ (TimedOut d.errors ∨ Alone d)
  | .calling d => ∀ x ∈ trace, ∀ p ∈ timeout x, p = d.provider ∧ (TimedOut d.errors ∨ Alone d)
  | _ => True

section Pending

variable {policy : RetryPolicy} {cfg : Config} {g : Stage} {d : Draft} {trace : Trace}
  {x : (e : Effect) × e.Reply}

theorem Pending.append (h : Pending g trace) (quiet : timeout x = none) :
    Pending g (trace ++ [x]) := by
  have extended {P : ((e : Effect) × e.Reply) → Prop} (before : ∀ y ∈ trace, P y) (last : P x) :
      ∀ y ∈ trace ++ [x], P y := by
    intro y hy
    obtain hy | hy := List.mem_append.mp hy
    · exact before y hy
    · rwa [List.mem_singleton.mp hy]
  cases g with
  | ordered => exact extended h quiet
  | routing id => exact extended h quiet
  | asking d => exact extended h (by rw [quiet]; nofun)
  | permitted d => exact extended h (by rw [quiet]; nofun)
  | calling d => exact extended h (by rw [quiet]; nofun)
  | _ => trivial

theorem Pending.draw (h : Pending g trace) (id : Uuid) : Pending (g.draw id) trace := by
  cases g <;> exact h

theorem Pending.choose (h : Pending g trace) (healthy : List Provider) (provider : Provider) :
    Pending (g.choose healthy provider) trace := by
  cases g with
  | routing id =>
    intro x hx p hp
    rw [h x hx] at hp
    cases hp
  | _ => exact h

theorem Pending.abandon (h : Pending g trace) : Pending g.abandon trace := by
  cases g with
  | asking d => trivial
  | permitted d => trivial
  | _ => exact h

theorem Pending.start (h : Pending g trace) : Pending g.start trace := by
  cases g <;> exact h

theorem Pending.store (h : Pending g trace) : Pending g.store trace := by
  cases g with
  | returned d result => trivial
  | failed id visits => trivial
  | applying p => trivial
  | _ => exact h

theorem Pending.find (h : Pending g trace) (p : Payment) : Pending (g.find p) trace := by
  cases g with
  | outside => trivial
  | _ => exact h

/-- A visit with a timeout is left for no other provider. -/
theorem Pending.leave (h : Pending (.asking d) trace) (ending : Visits.Ending) {code : String}
    (alone : code ∈ Service.failoverErrors → TimedOut d.errors → Alone d) :
    Pending (d.leave ending code) trace := by
  unfold Draft.leave
  split
  · rename_i failover
    cases rest : d.rest with
    | nil => trivial
    | cons provider rest' =>
      intro x hx p hp
      obtain ⟨rfl, unsure⟩ := h x hx p hp
      have only : ∀ q ∈ provider :: rest', q = d.provider := by
        rw [← rest]
        obtain unsure | only := unsure
        · exact alone failover unsure
        · exact only
      have same := only provider (List.mem_cons_self ..)
      refine ⟨same.symm, .inr fun q hq => ?_⟩
      exact (only q (List.mem_cons_of_mem _ hq)).trans same.symm
  · trivial

theorem Pending.permit (h : Pending (.asking d) trace) {allowed : Bool}
    (alone : allowed = false → TimedOut d.errors → Alone d) :
    Pending ((Stage.asking d).permit allowed) trace := by
  cases allowed with
  | true => exact h
  | false =>
    have left : Pending (d.leave .refused "CIRCUIT_OPEN") trace :=
      h.leave .refused fun _ => alone rfl
    exact left

theorem TimedOut.raised {errors : List ProviderError} (h : TimedOut errors)
    (error : ProviderError) : TimedOut (errors ++ [error]) := by
  obtain ⟨e, he, code⟩ := h
  exact ⟨e, List.mem_append_left _ he, code⟩

theorem Pending.raised (h : Pending (.calling d) trace) (id : Uuid) (error : ProviderError) :
    Pending (.asking (d.raised error))
      (trace ++ [⟨.provider (.finishPayment d.provider id), .error (.provider error)⟩]) := by
  intro x hx p hp
  obtain hx | hx := List.mem_append.mp hx
  · obtain ⟨rfl, unsure⟩ := h x hx p hp
    exact ⟨rfl, unsure.imp_left fun timedOut => timedOut.raised error⟩
  · obtain rfl := List.mem_singleton.mp hx
    simp only [timeout, Option.mem_def] at hp
    split at hp
    · rename_i code
      refine ⟨(Option.some.inj hp).symm, .inl ⟨error, ?_, code⟩⟩
      exact List.mem_append_right _ (List.mem_singleton_self _)
    · cases hp

theorem Pending.fail (h : Pending (.calling d) trace) (id : Uuid) {error : ProviderError}
    (alone : GivesUp policy d error → TimedOut (d.errors ++ [error]) → Alone d) :
    Pending (d.fail policy error)
      (trace ++ [⟨.provider (.finishPayment d.provider id), .error (.provider error)⟩]) := by
  unfold Draft.fail
  split
  · rename_i last
    exact (h.raised id error).leave .gaveUp fun failover => alone ⟨last, failover⟩
  · split
    · trivial
    · exact h.raised id error

/-- What is met outside the providers leaves the timeouts as they are. -/
theorem pending_next {e : Effect} {r : e.Reply} (h : Pending g trace) (hok : ok g e)
    (hmay : may cfg.retryPolicy g e r) : Pending (next cfg g e r) (trace ++ [⟨e, r⟩]) := by
  cases e with
  | host e =>
    cases e with
    | uuid4 => exact (h.append rfl).draw r
    | sleep delay =>
      cases r with
      | ok _ => exact h.append rfl
      | error x => exact (h.append rfl).abandon
    | _ => exact h.append rfl
  | circuit e =>
    cases e with
    | allowRequest p =>
      obtain ⟨d, rfl, rfl⟩ := hok
      exact (h.append rfl).permit fun refused => hmay d rfl refused
    | _ => exact h.append rfl
  | semaphore e =>
    cases e with
    | acquire p n =>
      cases r with
      | ok _ => exact h.append rfl
      | error x => exact (h.append rfl).abandon
    | _ => exact h.append rfl
  | provider e =>
    cases e with
    | choose healthy =>
      cases r with
      | ok provider => exact (h.append rfl).choose healthy provider
      | error x => exact h.append rfl
    | startPayment p id amount currency token => exact (h.append rfl).start
    | finishPayment p id =>
      obtain ⟨d, rfl, rfl⟩ := hok
      cases r with
      | ok result => trivial
      | error x =>
        cases x with
        | provider error => exact h.fail id (hmay d rfl)
        | _ => trivial
    | _ => exact h.append rfl
  | store e =>
    cases e with
    | get paymentId =>
      obtain x | (_ | p) := r
      · exact h.append rfl
      · exact h.append rfl
      · exact (h.append rfl).find p
    | save p => exact (h.append rfl).store
    | saveWithEvents p events => exact (h.append rfl).store
    | reread p => trivial
    | _ => exact h.append rfl
  | _ => exact h.append rfl

theorem faithful_append {e : Effect} {r : e.Reply} (faithful : Faithful trace)
    (h : Pending g trace) (hok : ok g e) : Faithful (trace ++ [⟨e, r⟩]) := by
  refine List.pairwise_append.mpr ⟨faithful, List.pairwise_singleton .., ?_⟩
  intro x hx y hy p hp q hq
  obtain rfl := List.mem_singleton.mp hy
  cases e with
  | provider e =>
    cases e with
    | startPayment provider id amount currency token =>
      obtain ⟨d, rfl, rfl⟩ := hok
      obtain ⟨rfl, -⟩ := h x hx p hp
      exact (Option.some.inj hq).symm
    | _ => cases hq
  | _ => cases hq

end Pending

/-- Only the providers raise a `ProviderError`. -/
def Native : Input → Prop
  | .fail (.provider _) _ => False
  | .done (.error (.provider _)) => False
  | _ => True

/-- The stage a call has come to. -/
def stage (cfg : Config) (T : ServiceTask) : Stage := (discipline cfg).phase T

/-- A visit with a timeout does not end with an error that makes the call go on to another
provider. -/
structure Safe (cfg : Config) (s : ServiceState) (l : ServiceLabel) : Prop where
  raised : ∀ t T d error, s.tasks t = some T → stage cfg T = .calling d →
    l = .resume t (.outcome (.error (.provider error))) → GivesUp cfg.retryPolicy d error →
      TimedOut (d.errors ++ [error]) → Alone d
  refused : ∀ t T d p now, s.tasks t = some T → stage cfg T = .asking d →
    T.code.head = some (.circuit (.allowRequest p)) → l = .enter t (.at now) →
      ((s.world.circuit p).allowRequest now).1 = false → TimedOut d.errors → Alone d
  native : ∀ t i, l = .enter t i ∨ l = .resume t i → Native i

section Step

variable {cfg : Config} {profile : Profile} {s : ServiceState} {l : ServiceLabel} {t : Tid}
  {T : ServiceTask} {e : Effect} {r : e.Reply} {w : World}

theorem complete_native {key : RecordKey} {fingerprint : String} {paymentId : Uuid} {x : Exn}
    (meets : Safe cfg s l) (h : Delivered (system cfg profile) s l t
      (.coordinator (.complete key fingerprint paymentId)) (.reply (.error x) w)) :
    ∀ error, x ≠ .provider error := by
  have external {i : Input} {c c' : MemoryIdempotencyCoordinator} (native : Native i)
      (ha : ExternalCoordinator.answer (.complete key fingerprint paymentId) i c =
        .reply (.error x) c') : ∀ error, x ≠ .provider error := by
    rintro error rfl
    cases i <;> cases ha
    exact native
  cases coordinator : profile.coordinator with
  | memory =>
    obtain done | ⟨message, raised⟩ := complete_direct_reply coordinator h
    · cases done
    · cases raised
      nofun
  | external =>
    obtain ⟨i, hl, -, ha⟩ | ⟨i, hl, -, ha⟩ := h.answer
    · simp only [system, Effect.enter, coordinator] at ha
      obtain ⟨c, hc, -⟩ := Answer.lift_reply ha.symm
      exact external (meets.native t i (.inl hl)) hc
    · simp only [system, Effect.resume, coordinator] at ha
      obtain ⟨c, hc, -⟩ := Answer.lift_reply ha.symm
      exact external (meets.native t i (.inr hl)) hc

theorem store_native {e : StoreEffect} {r : e.Reply} {x : Exn} (meets : Safe cfg s l)
    (raised : e.raised r = some x)
    (h : Delivered (system cfg profile) s l t (.store e) (.reply r w)) :
    ∀ error, x ≠ .provider error := by
  rintro error rfl
  obtain ⟨stored, failing⟩ := store_raised raised h
  exact meets.native t _ failing

/-- In a step that meets the condition a reply is one the protocol reckons with. -/
theorem reply_may (meets : Safe cfg s l) (task : s.tasks t = some T)
    (h : Delivered (system cfg profile) s l t e (.reply r w)) :
    may cfg.retryPolicy (stage cfg T) e r := by
  cases e with
  | host e =>
    cases e with
    | sleep delay =>
      cases r with
      | ok _ => trivial
      | error x =>
        obtain ⟨rfl, -⟩ := sleep_error h
        exact nofun
    | _ => trivial
  | circuit e =>
    cases e with
    | allowRequest p =>
      obtain ⟨now, hl, -, rfl, -⟩ := allowRequest_reply h
      obtain ⟨U, task', head⟩ := h.reached
      obtain rfl := Option.some.inj (task.symm.trans task')
      exact fun d hd => meets.refused t T d p now task hd head hl
    | _ => trivial
  | semaphore e =>
    cases e with
    | acquire p n =>
      cases r with
      | ok _ => trivial
      | error x =>
        obtain ⟨rfl, -⟩ := semaphore_error h
        exact nofun
    | _ => trivial
  | provider e =>
    cases e with
    | finishPayment p id =>
      cases r with
      | ok _ => trivial
      | error x =>
        cases x with
        | provider error =>
          obtain ⟨hl | ⟨-, cancelled⟩, -, -⟩ := finishPayment_reply h
          · exact fun d hd => meets.raised t T d error task hd hl
          · cases cancelled
        | _ => trivial
    | _ => trivial
  | store e =>
    cases e with
    | save p =>
      cases r with
      | ok _ => trivial
      | error x => exact store_native meets rfl h
    | saveWithEvents p events =>
      cases r with
      | ok _ => trivial
      | error x => exact store_native meets rfl h
    | append events =>
      cases r with
      | ok _ => trivial
      | error x => exact store_native meets rfl h
    | _ => trivial
  | coordinator e =>
    cases e with
    | complete key fingerprint paymentId =>
      cases r with
      | ok _ => trivial
      | error x => exact complete_native meets h
    | _ => trivial
  | _ => trivial

end Step

theorem maintains {cfg : Config} (profile : Profile) (polite : Polite cfg.coordinator) :
    Maintains (system cfg profile) (Safe cfg) (discipline cfg) fun _ _ _ => True where
  follows := run_follows polite
  call := fun _ _ _ _ => trivial
  reply := fun {s l t c g e r w} meets _ ht _ h => by
    obtain ⟨T, task, same⟩ := (discipline cfg).statuses_some ht
    obtain rfl : stage cfg T = g := congrArg Status.phase same
    exact ⟨reply_may meets task h, fun _ _ _ => trivial⟩
  wait := fun _ _ _ _ _ => trivial
  outside := fun _ _ _ => trivial

/-- While no visit with a timeout is given up for another provider, no provider but the one that
timed out is called for the payment. -/
theorem timeout_faithful {cfg : Config} {profile : Profile} (polite : Polite cfg.coordinator)
    {w : World} {s : ServiceState} (h : Reaches (system cfg profile) (Safe cfg) (.empty w) s)
    {t : Tid} {T : ServiceTask} (task : s.tasks t = some T) : Faithful T.trace := by
  have both := (maintains profile polite).traced
    (J := fun g trace => Faithful trace ∧ Pending g trace) ?_ ?_ trivial h task
  · exact both.1
  · intro c
    refine ⟨List.Pairwise.nil, ?_⟩
    cases c with
    | create data => exact fun x hx => absurd hx List.not_mem_nil
    | _ => trivial
  · rintro c g trace e r ⟨faithful, pending⟩ hok hmay
    exact ⟨faithful_append faithful pending hok, pending_next pending hok hmay⟩

/-- A check that a step meets the condition: the errors of a visit are retried, and the circuits
let every visit through. -/
def safe (cfg : Config) (s : ServiceState) (l : ServiceLabel) : Bool :=
  match l, l.task.bind s.tasks with
  | .resume _ (.outcome (.error (.provider error))), some T =>
    match stage cfg T with
    | .calling d => isRetryable error && d.errors.length + 1 ≠ cfg.retryPolicy.maxAttempts
    | _ => true
  | .enter _ (.at now), some T =>
    match T.code.head with
    | some (.circuit (.allowRequest p)) => ((s.world.circuit p).allowRequest now).1
    | _ => true
  | .enter _ (.fail _ _), _ => false
  | .resume _ (.fail _ _), _ => false
  | .enter _ (.done _), _ => false
  | .resume _ (.done _), _ => false
  | _, _ => true

theorem safe_meets {cfg : Config} {s : ServiceState} {l : ServiceLabel}
    (h : safe cfg s l = true) : Safe cfg s l := by
  constructor
  · rintro t T d error task hd rfl ⟨last, -⟩
    have retried : isRetryable error = true ∧
        d.errors.length + 1 ≠ cfg.retryPolicy.maxAttempts := by
      simpa [safe, Label.task, task, hd] using h
    obtain final | full := last
    · cases final.symm.trans retried.1
    · exact absurd full retried.2
  · rintro t T d p now task hd head rfl refused
    have allowed : ((s.world.circuit p).allowRequest now).1 = true := by
      simpa [safe, Label.task, task, head] using h
    cases allowed.symm.trans refused
  · rintro t i (rfl | rfl)
    · cases i <;> trivial
    · cases i <;> trivial

def timedOutError : ProviderError := { code := "PROVIDER_TIMEOUT" }

/-- The first call times out, and the circuit lets the visit go on to its second. -/
def timeoutRun : List ServiceLabel :=
  create 0 0 (card "a") 2 ++ ask 0 0 ++ start 0 ++ raises 0 timedOutError ++ recordFailure 0 0 ++
  [.enter 0 .go, .enter 0 (.at 0), .enter 0 (.number 0), .enter 0 .suspend, .resume 0 .go] ++
  ask 0 0 ++ start 0

theorem timeout_faithful_retried :
    ∃ s ∈ run (system (service ["stripe", "adyen"] 2) {}) timeoutRun
      (.empty (.initial steadyCircuit [])), ∃ T, s.tasks 0 = some T ∧
        T.trace.filterMap timeout = ["stripe"] ∧
        T.trace.filterMap charged = ["stripe", "stripe"] ∧ Faithful T.trace := by
  have h : ∃ s ∈ runWhile (system (service ["stripe", "adyen"] 2) {})
      (fun s l => safe (service ["stripe", "adyen"] 2) s l = true) timeoutRun
      (.empty (.initial steadyCircuit [])), ∃ T ∈ s.tasks 0,
        T.trace.filterMap timeout = ["stripe"] ∧
        T.trace.filterMap charged = ["stripe", "stripe"] := by
    decide +kernel
  obtain ⟨s, moved, T, task, timeouts, calls⟩ := h
  have reached := (runWhile_reaches _ moved).mono fun _ _ => safe_meets
  exact ⟨s, runWhile_run _ moved, T, task, timeouts, calls,
    timeout_faithful polite_direct reached task⟩

/-- The second call finds the provider unavailable, and the other provider is called. -/
def chargedTwiceRun : List ServiceLabel :=
  timeoutRun ++ raises 0 unavailable ++ recordFailure 0 0 ++ [.enter 0 .go, .enter 0 (.at 0)] ++
  ask 0 0 ++ [.enter 0 .go]

theorem charged_after_timeout : ¬ ∀ ls s, run (system (service ["stripe", "adyen"] 2) {}) ls
    (.empty (.initial steadyCircuit [])) = some s →
      ∀ t T, s.tasks t = some T → Faithful T.trace := by
  intro faithful
  have h : ∃ s ∈ run (system (service ["stripe", "adyen"] 2) {}) chargedTwiceRun
      (.empty (.initial steadyCircuit [])), ∃ T ∈ s.tasks 0, ¬Faithful T.trace := by
    decide +kernel
  obtain ⟨s, moved, T, task, unfaithful⟩ := h
  exact unfaithful (faithful _ s moved 0 T task)

end PySwitch.Timeouts
