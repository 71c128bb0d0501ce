import PySwitch.ServiceFootprint
import PySwitch.Machine

namespace PySwitch.Permit

open Async Program Service

/-- Where a call is between asking a circuit for a permit and recording an outcome there. The
state is the one the circuit was in when it granted the permit. -/
inductive Stage where
  | idle
  | permitted (provider : Provider) (state : CircuitState)
  | calling (provider : Provider) (state : CircuitState)
  | returned (provider : Provider) (state : CircuitState)
  | failed (provider : Provider) (state : CircuitState)
  | recovering (provider : Provider)

def ok : Stage → Effect → Prop
  | .idle, .circuit (.recordSuccess _) => False
  | .idle, .circuit (.recordFailure _) => False
  | .idle, .provider (.startPayment _ _ _ _ _) => False
  | .idle, .provider (.finishPayment _ _) => False
  | .idle, _ => True
  | .permitted _ _, .host .now => True
  | .permitted _ _, .stats _ => True
  | .permitted _ _, .semaphore (.current _) => True
  | .permitted p _, .semaphore (.acquire q _) => q = p
  | .permitted p _, .provider (.startPayment q _ _ _ _) => q = p
  | .calling p _, .provider (.finishPayment q _) => q = p
  | .returned _ _, .semaphore (.release _ _) => True
  | .returned p _, .circuit (.recordSuccess q) => q = p
  | .failed _ _, .semaphore (.release _ _) => True
  | .failed _ _, .host .now => True
  | .failed _ _, .stats _ => True
  | .failed p _, .circuit (.recordFailure q) => q = p
  | .recovering p, .circuit (.recordSuccess q) => q = p
  | _, _ => False

def may : (e : Effect) → e.Reply → Prop
  | .circuit (.allowRequest _), (allowed, previous, current) =>
    previous ≠ current → allowed = true ∧ current = .halfOpen
  | .semaphore (.acquire _ _), .error x => x = .cancelled
  | _, _ => True

def next : Stage → (e : Effect) → e.Reply → Stage
  | .idle, .circuit (.allowRequest p), (allowed, _, current) =>
    if allowed then .permitted p current else .idle
  | .permitted _ _, .semaphore (.acquire _ _), .error _ => .idle
  | .permitted p state, .provider (.startPayment _ _ _ _ _), _ => .calling p state
  | .calling p state, .provider (.finishPayment _ _), .ok _ => .returned p state
  | .calling p state, .provider (.finishPayment _ _), .error (.provider _) => .failed p state
  | .calling _ _, .provider (.finishPayment _ _), .error _ => .idle
  | .returned _ _, .circuit (.recordSuccess _), _ => .idle
  | .failed _ _, .circuit (.recordFailure _), _ => .idle
  | .recovering _, .circuit (.recordSuccess _), _ => .idle
  | g, _, _ => g

/-- The stage a provider call ends in. -/
def afterCall {α : Type} (provider : Provider) (state : CircuitState) : Except Exn α → Stage
  | .ok _ => .returned provider state
  | .error (.provider _) => .failed provider state
  | .error _ => .idle

/-- The call holds no permit. -/
def Idle (_ : Locals) (g : Stage) : Prop := g = .idle

def protocol : Protocol Effect Effect.Reply Stage := ⟨ok, fun _ => may, next⟩

variable (cfg : Config) (provider : Provider)

theorem hosting_keeps {α : Type} {m : Service α} (h : Uses Effect.hosting m) :
    Keeps protocol Idle m :=
  keeps_of_uses h fun s g e hg he => by
    obtain rfl : g = .idle := hg
    cases e with
    | host e => exact ⟨trivial, fun _ _ => rfl⟩
    | _ => exact he.elim

theorem stats_keeps (e : StatsEffect) : Keeps protocol Idle (perform (.stats e)) := by
  rintro s _ rfl
  exact ⟨trivial, fun _ _ => rfl⟩

theorem recordCircuitTransition_keeps (previous current : CircuitState) :
    Keeps protocol Idle (recordCircuitTransition cfg provider previous current) :=
  keeps_of_uses (uses_recordCircuitTransition cfg provider previous current) fun s g e hg he => by
    obtain rfl : g = .idle := hg
    cases e with
    | host e => exact ⟨trivial, fun _ _ => rfl⟩
    | store e => exact ⟨trivial, fun _ _ => rfl⟩
    | _ => exact he.elim

theorem allowProvider_wp {s : Locals} : wp protocol (allowProvider cfg provider)
    (fun r s' g => s' = s ∧ (r = .ok false ∧ g = .idle ∨
      r = .ok true ∧ ∃ state, g = .permitted provider state)) s .idle := by
  simp only [allowProvider, wp_bind, perform, wp_effect]
  refine ⟨trivial, ?_⟩
  rintro ⟨allowed, previous, current⟩ h
  simp only [orRaise_ok, wp_bind, wp_onlyIf, wp_pure]
  split
  · rename_i moved
    obtain ⟨rfl, rfl⟩ := h moved
    simp [recordCircuitTransition, next, protocol]
  · cases allowed <;> simp [next, protocol]

theorem createPayment_wp (payment : Payment) (data : PaymentInput) (state : CircuitState)
    {s : Locals} : wp protocol (createPayment provider payment data)
      (fun r s' g => s' = s ∧ g = afterCall provider state r) s (.permitted provider state) := by
  simp only [createPayment, perform, wp_bind, wp_effect, orRaise_ok, wp_await]
  refine ⟨rfl, fun _ _ => ⟨rfl, fun r _ => ?_⟩⟩
  cases r with
  | ok result => exact ⟨trivial, rfl⟩
  | error x => cases x <;> exact ⟨trivial, rfl⟩

theorem callProvider_wp (payment : Payment) (data : PaymentInput) (state : CircuitState)
    {s : Locals} : wp protocol (callProvider provider payment data)
      (fun r s' g => s' = s ∧ g = afterCall provider state r) s (.permitted provider state) := by
  simp only [callProvider, wp_bind, perform, wp_effect]
  refine ⟨trivial, ?_⟩
  rintro (_ | semaphore) -
  · exact createPayment_wp provider payment data state
  · simp only [orRaise_ok, wp_bind, wp_await, wp_effect]
    refine ⟨rfl, ?_⟩
    rintro (x | ⟨⟩) h
    · obtain rfl : x = .cancelled := h
      exact ⟨rfl, rfl⟩
    · simp only [orRaise_ok, wp_ensure]
      refine wp_mono (createPayment_wp provider payment data state) ?_
      rintro r s' g ⟨rfl, rfl⟩
      cases r with
      | ok result => exact ⟨trivial, fun _ _ => ⟨rfl, rfl⟩⟩
      | error x => cases x <;> exact ⟨trivial, fun _ _ => ⟨rfl, rfl⟩⟩

theorem recordFailure_wp (state : CircuitState) {s : Locals} :
    wp protocol (recordFailure cfg provider) (fun _ _ g => g = .idle) s
      (.failed provider state) := by
  simp only [recordFailure, wp_bind, perform, wp_effect]
  exact ⟨rfl, fun _ _ => keeps_onlyIf (recordCircuitTransition_keeps cfg provider _ _) _ _ rfl⟩

theorem recordSuccess_wp {s : Locals} {g : Stage} (hg : ok g (.circuit (.recordSuccess provider)))
    (hn : ∀ r, next g (.circuit (.recordSuccess provider)) r = .idle) :
    wp protocol (recordSuccess cfg provider) (fun _ _ g => g = .idle) s g := by
  simp only [recordSuccess, wp_bind, perform, wp_effect]
  refine ⟨hg, fun r _ => ?_⟩
  simp only [protocol, hn]
  exact keeps_onlyIf (recordCircuitTransition_keeps cfg provider _ _) _ _ rfl

theorem appendAttempt_keeps (attemptNumber : ℕ) (result : AttemptResult) (latencyMs : ℚ)
    (errorCode : Option String) :
    Keeps protocol Idle (appendAttempt provider attemptNumber result latencyMs errorCode) :=
  keeps_bind (hosting_keeps uses_now) fun _ => keeps_modify fun _ _ h => h

theorem afterError_wp {α : Type} (attemptNumber : ℕ) (started : Seconds) (state : CircuitState)
    (x : Exn) {s : Locals} : wp protocol (afterError cfg provider attemptNumber started x)
      (fun _ _ g => g = .idle) s
      (afterCall provider state (.error x : Except Exn α)) := by
  cases x with
  | provider error =>
    simp only [afterError, latencySince, now, perform, wp_bind, wp_effect, wp_pure, orRaise_ok]
    refine ⟨trivial, fun _ _ => ⟨trivial, fun _ _ => ?_⟩⟩
    refine wp_mono (recordFailure_wp cfg provider state) ?_
    rintro (x | _) s' g rfl
    · rfl
    · exact keeps_bind (keeps_onlyIf (stats_keeps _))
        (fun _ => appendAttempt_keeps provider _ _ _ _) s' _ rfl
  | cancelled => rfl
  | _ => exact ⟨trivial, fun _ _ => ⟨trivial, fun _ _ => rfl⟩⟩

/-- Every permit an attempt obtains it gives back in one way or another before it ends. -/
theorem operation_keeps (payment : Payment) (data : PaymentInput) :
    Keeps protocol Idle (operation cfg provider payment data) := by
  rintro s _ rfl
  simp only [operation, wp_bind, wp_get, orRaise_ok]
  refine wp_mono (allowProvider_wp cfg provider) ?_
  rintro _ s' g ⟨rfl, ⟨rfl, rfl⟩ | ⟨rfl, state, rfl⟩⟩
  · rfl
  · simp only [orRaise_ok, Bool.true_eq_false, if_false, now, perform, wp_bind, wp_effect,
      wp_attempt]
    refine ⟨trivial, fun started _ => ⟨trivial, fun _ _ => ?_⟩⟩
    refine wp_mono (callProvider_wp provider payment data state) ?_
    rintro r s'' g ⟨rfl, rfl⟩
    cases r with
    | error x =>
      simp only [wp_bind]
      refine wp_mono (afterError_wp cfg provider _ _ state x) ?_
      rintro (_ | _) s' g rfl <;> rfl
    | ok result =>
      simp only [wp_bind]
      refine wp_mono (recordSuccess_wp cfg provider rfl fun _ => rfl) ?_
      rintro (_ | _) s' g rfl
      · rfl
      · exact keeps_bind (hosting_keeps (uses_latencySince _)) (fun _ =>
          keeps_bind (stats_keeps _) fun _ =>
          keeps_bind (appendAttempt_keeps provider _ _ _ _) fun _ => keeps_pure _) s' _ rfl

def first : Call → Stage
  | .recover provider => .recovering provider
  | _ => .idle

def discipline : Discipline Call Effect Effect.Reply (Except Exn Result) Stage :=
  ⟨fun _ => protocol, first, fun _ _ g => g = .idle⟩

theorem neutral_idle (s : Locals) (g : Stage) (e : Effect) (hg : Idle s g)
    (h : ¬ e.attempting) :
    protocol.ok g e ∧ ∀ r, protocol.may g e r → Idle s (protocol.next g e r) := by
  obtain rfl : g = .idle := hg
  cases e with
  | circuit e => exact (h trivial).elim
  | provider e =>
    cases e with
    | startPayment => exact (h trivial).elim
    | finishPayment => exact (h trivial).elim
    | _ => exact ⟨trivial, fun _ _ => rfl⟩
  | _ => exact ⟨trivial, fun _ _ => rfl⟩

theorem run_follows (c : Call) :
    ((c.run cfg).start {}).Follows protocol (discipline.post c) (first c) := by
  refine start_follows ?_
  cases c with
  | create data =>
    exact keeps_bind (keeps_create neutral_idle (fun _ _ _ h => h) (operation_keeps cfg) data)
      (fun _ => keeps_pure _) {} _ rfl
  | refund paymentId amount =>
    exact keeps_bind (keeps_refund neutral_idle paymentId amount) (fun _ => keeps_pure _) {} _ rfl
  | recover provider =>
    simp only [Call.run, wp_bind]
    refine wp_mono (recordSuccess_wp cfg provider rfl fun _ => rfl) ?_
    rintro (_ | _) s g rfl <;> rfl

end PySwitch.Permit
