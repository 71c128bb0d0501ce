import PySwitch.Machine
import PySwitch.ServiceFootprint

namespace PySwitch.Slots

open Async Program Service

/-- Where a call is between choosing the semaphore of a provider and releasing it. Without a
limit there is no semaphore. -/
inductive Stage where
  | idle
  | chosen (provider : Provider) (semaphore : Option ℕ)
  | granted (provider : Provider) (semaphore : ℕ)
  | calling (provider : Provider) (semaphore : Option ℕ)
  | leaving (provider : Provider) (semaphore : ℕ)
  deriving DecidableEq

/-- The effects of the provider call with its semaphore. -/
def slotting : Effect → Prop
  | .semaphore _ => True
  | .provider (.startPayment _ _ _ _ _) => True
  | .provider (.finishPayment _ _) => True
  | _ => False

def ok : Stage → Effect → Prop
  | .idle, .semaphore (.current _) => True
  | .idle, e => ¬slotting e
  | .chosen p (some n), .semaphore (.acquire q m) => q = p ∧ m = n
  | .chosen p none, .provider (.startPayment q _ _ _ _) => q = p
  | .granted p _, .provider (.startPayment q _ _ _ _) => q = p
  | .calling p _, .provider (.finishPayment q _) => q = p
  | .leaving p n, .semaphore (.release q m) => q = p ∧ m = n
  | _, _ => False

def next : Stage → (e : Effect) → e.Reply → Stage
  | .idle, .semaphore (.current p), n => .chosen p n
  | .chosen p _, .semaphore (.acquire _ m), .ok _ => .granted p m
  | .chosen _ _, .semaphore (.acquire _ _), .error _ => .idle
  | .chosen p n, .provider (.startPayment _ _ _ _ _), _ => .calling p n
  | .granted p n, .provider (.startPayment _ _ _ _ _), _ => .calling p (some n)
  | .calling p (some n), .provider (.finishPayment _ _), _ => .leaving p n
  | .calling _ none, .provider (.finishPayment _ _), _ => .idle
  | .leaving _ _, .semaphore (.release _ _), _ => .idle
  | g, _, _ => g

def protocol : Protocol Effect Effect.Reply Stage := ⟨ok, fun _ _ _ => True, next⟩

/-- The call is at no semaphore. -/
def Idle (_ : Locals) (g : Stage) : Prop := g = .idle

theorem neutral {e : Effect} (h : ¬slotting e) : ok .idle e ∧ ∀ r, next .idle e r = .idle := by
  cases e with
  | semaphore e => exact absurd trivial h
  | _ => exact ⟨h, fun _ => rfl⟩

theorem idle_of_uses {α : Type} {A : Effect → Prop} {m : Service α} (h : Uses A m)
    (hA : ∀ e, A e → ¬slotting e) : Keeps protocol Idle m :=
  keeps_of_uses h fun s g e hg he => by
    obtain rfl : g = .idle := hg
    exact ⟨(neutral (hA e he)).1, fun r _ => (neutral (hA e he)).2 r⟩

theorem idle_perform {e : Effect} (h : ¬slotting e) : Keeps protocol Idle (perform e) :=
  idle_of_uses (A := fun e => ¬slotting e) (uses_effect h) fun _ h => h

theorem not_slotting_of_recording (e : Effect) (h : e.recording) : ¬slotting e := by
  cases e with
  | host e => exact id
  | store e => exact id
  | _ => exact h.elim

theorem idle_hosting {α : Type} {m : Service α} (h : Uses Effect.hosting m) :
    Keeps protocol Idle m :=
  idle_of_uses h fun e he => not_slotting_of_recording e (Effect.recording_of_hosting e he)

variable (cfg : Config) (provider : Provider)

theorem recordCircuitTransition_idle (previous current : CircuitState) :
    Keeps protocol Idle (recordCircuitTransition cfg provider previous current) :=
  idle_of_uses (uses_recordCircuitTransition _ _ _ _) not_slotting_of_recording

theorem recordSuccess_idle : Keeps protocol Idle (recordSuccess cfg provider) :=
  keeps_bind (idle_perform id) fun _ => keeps_onlyIf (recordCircuitTransition_idle cfg provider _ _)

theorem recordFailure_idle : Keeps protocol Idle (recordFailure cfg provider) :=
  keeps_bind (idle_perform id) fun _ => keeps_onlyIf (recordCircuitTransition_idle cfg provider _ _)

/-- The provider call of a call without a semaphore. -/
theorem createPayment_free (payment : Payment) (data : PaymentInput) {s : Locals} :
    wp protocol (createPayment provider payment data) (fun _ s' g => Idle s' g) s
      (.chosen provider none) := by
  simp only [createPayment, perform, wp_bind, wp_effect, orRaise_ok, wp_await]
  refine ⟨rfl, fun _ _ => ⟨rfl, fun answer _ => ?_⟩⟩
  cases answer <;> rfl

/-- The provider call inside a semaphore. -/
theorem createPayment_guarded (payment : Payment) (data : PaymentInput) {n : ℕ} {s : Locals} :
    wp protocol (createPayment provider payment data) (fun _ _ g => g = .leaving provider n) s
      (.granted provider n) := by
  simp only [createPayment, perform, wp_bind, wp_effect, orRaise_ok, wp_await]
  refine ⟨rfl, fun _ _ => ⟨rfl, fun answer _ => ?_⟩⟩
  cases answer <;> rfl

theorem callProvider_idle (payment : Payment) (data : PaymentInput) :
    Keeps protocol Idle (callProvider provider payment data) := by
  rintro s _ rfl
  simp only [callProvider, wp_bind, perform, wp_effect]
  refine ⟨trivial, ?_⟩
  rintro (_ | n) -
  · exact createPayment_free provider payment data
  · simp only [orRaise_ok, wp_bind, wp_await, wp_effect]
    refine ⟨⟨rfl, rfl⟩, ?_⟩
    rintro (x | ⟨⟩) -
    · rfl
    · simp only [orRaise_ok, wp_ensure]
      refine wp_mono (createPayment_guarded provider payment data) ?_
      rintro r s' g rfl
      exact ⟨⟨rfl, rfl⟩, fun _ _ => rfl⟩

theorem appendAttempt_idle (attemptNumber : ℕ) (result : AttemptResult) (latencyMs : ℚ)
    (errorCode : Option String) :
    Keeps protocol Idle (appendAttempt provider attemptNumber result latencyMs errorCode) :=
  keeps_bind (idle_hosting uses_now) fun _ => keeps_modify fun _ _ h => h

theorem afterError_idle (attemptNumber : ℕ) (started : Seconds) (x : Exn) :
    Keeps protocol Idle (afterError cfg provider attemptNumber started x) := by
  have latency : Keeps protocol Idle (latencySince started) := idle_hosting (uses_latencySince _)
  cases x with
  | provider error =>
    exact keeps_bind latency fun _ => keeps_bind (idle_perform id) fun _ =>
      keeps_bind (recordFailure_idle cfg provider) fun _ =>
      keeps_bind (keeps_onlyIf (idle_perform id)) fun _ => appendAttempt_idle provider _ _ _ _
  | cancelled => exact keeps_pure _
  | _ => exact keeps_bind latency fun _ => idle_perform id

theorem operation_idle (payment : Payment) (data : PaymentInput) :
    Keeps protocol Idle (operation cfg provider payment data) := by
  have allow : Keeps protocol Idle (allowProvider cfg provider) :=
    keeps_bind (idle_perform id) fun _ =>
      keeps_bind (keeps_onlyIf (recordCircuitTransition_idle cfg provider _ _)) fun _ => keeps_pure _
  apply keeps_bind keeps_get
  intro s
  apply keeps_bind allow
  intro allowed
  apply keeps_ite (keeps_raise _)
  apply keeps_bind (idle_hosting uses_now)
  intro started
  apply keeps_bind (idle_perform id)
  intro _
  apply keeps_bind (keeps_attempt (callProvider_idle provider payment data))
  intro answer
  cases answer with
  | error x => exact keeps_bind (afterError_idle cfg provider _ _ _) fun _ => keeps_raise _
  | ok result =>
    exact keeps_bind (recordSuccess_idle cfg provider) fun _ =>
      keeps_bind (idle_hosting (uses_latencySince _)) fun _ =>
      keeps_bind (idle_perform id) fun _ =>
      keeps_bind (appendAttempt_idle provider _ _ _ _) fun _ => keeps_pure _

theorem neutral_idle (s : Locals) (g : Stage) (e : Effect) (hg : Idle s g) (h : ¬e.attempting) :
    protocol.ok g e ∧ ∀ r, protocol.may g e r → Idle s (protocol.next g e r) := by
  obtain rfl : g = .idle := hg
  have calm : ¬slotting e := by
    cases e with
    | semaphore e => exact absurd trivial h
    | provider e =>
      cases e with
      | startPayment => exact absurd trivial h
      | finishPayment => exact absurd trivial h
      | _ => exact id
    | _ => exact id
  exact ⟨(neutral calm).1, fun r _ => (neutral calm).2 r⟩

def discipline : Discipline Call Effect Effect.Reply (Except Exn Result) Stage :=
  ⟨fun _ => protocol, fun _ => .idle, fun _ _ g => g = .idle⟩

theorem run_follows (c : Call) :
    ((c.run cfg).start {}).Follows protocol (discipline.post c) (discipline.first c) := by
  apply start_follows
  cases c with
  | create data =>
    exact keeps_bind (keeps_create neutral_idle (fun _ _ _ h => h) (operation_idle cfg) data)
      (fun _ => keeps_pure _) {} _ rfl
  | refund paymentId amount =>
    exact keeps_bind (keeps_refund neutral_idle paymentId amount) (fun _ => keeps_pure _) {} _ rfl
  | recover provider =>
    exact keeps_bind (recordSuccess_idle cfg provider) (fun _ => keeps_pure _) {} _ rfl

end PySwitch.Slots
