import PySwitch.Machine
import PySwitch.ServiceFootprint

namespace PySwitch.Inflight

open Async Program Service

/-- An attempt is in flight from the moment its provider is counted until the count is taken
back, or until an exception takes the call out of the attempt. -/
inductive Stage where
  | absent
  | idle
  | inflight (provider : Provider)
  deriving DecidableEq

def ok : Stage → Effect → Prop
  | .absent, .stats (.startRequest _) => False
  | .absent, .stats (.finishRequest _ _ _ _) => False
  | .idle, .stats (.finishRequest _ _ _ _) => False
  | .inflight _, .stats (.startRequest _) => False
  | .inflight p, .stats (.finishRequest q _ _ _) => q = p
  | _, _ => True

def may : (e : Effect) → e.Reply → Prop
  | .semaphore (.acquire _ _), .error x => x = .cancelled
  | _, _ => True

def next : Stage → (e : Effect) → e.Reply → Stage
  | .idle, .stats (.startRequest p), _ => .inflight p
  | .inflight _, .stats (.finishRequest _ _ _ _), _ => .idle
  | .inflight _, .semaphore (.acquire _ _), .error _ => .idle
  | .inflight _, .provider (.finishPayment _ _), .error .cancelled => .idle
  | .inflight _, .store (.append _), .error _ => .idle
  | g, _, _ => g

/-- The effects that change how many requests of a provider are counted. -/
def counting : Effect → Prop
  | .stats (.startRequest _) => True
  | .stats (.finishRequest _ _ _ _) => True
  | _ => False

def protocol : Protocol Effect Effect.Reply Stage := ⟨ok, fun _ => may, next⟩

/-- The stage a provider call ends in. -/
def afterCall {α : Type} (provider : Provider) : Except Exn α → Stage
  | .error .cancelled => .idle
  | _ => .inflight provider

def Stays (g : Stage) (_ : Locals) (g' : Stage) : Prop := g' = g

variable (cfg : Config) (provider : Provider)

theorem neutral {g : Stage} (hg : ∀ p, g ≠ .inflight p) {e : Effect} (he : ¬ counting e) :
    ok g e ∧ ∀ r, next g e r = g := by
  cases g with
  | inflight p => exact absurd rfl (hg p)
  | _ =>
    cases e with
    | stats e =>
      cases e with
      | countRetry p => exact ⟨trivial, fun _ => rfl⟩
      | _ => exact absurd trivial he
    | _ => exact ⟨trivial, fun _ => rfl⟩

theorem stays {α : Type} {A : Effect → Prop} {m : Service α} {g : Stage}
    (hg : ∀ p, g ≠ .inflight p) (h : Uses A m) (hA : ∀ e, A e → ¬ counting e) :
    Keeps protocol (Stays g) m :=
  keeps_of_uses h fun s g' e hg' he => by
    obtain rfl : g' = g := hg'
    exact ⟨(neutral hg (hA e he)).1, fun r _ => (neutral hg (hA e he)).2 r⟩

theorem stays_effect {g : Stage} (hg : ∀ p, g ≠ .inflight p) {e : Effect} (he : ¬ counting e) :
    Keeps protocol (Stays g) (perform e) := by
  rintro s _ rfl
  exact ⟨(neutral hg he).1, fun r _ => (neutral hg he).2 r⟩

theorem not_counting_of_recording (e : Effect) (h : e.recording) : ¬ counting e := by
  cases e with
  | host e => exact id
  | store e => exact id
  | _ => exact h.elim

theorem idle_ne (p : Provider) : Stage.idle ≠ .inflight p := Stage.noConfusion

theorem absent_ne (p : Provider) : Stage.absent ≠ .inflight p := Stage.noConfusion

theorem allowProvider_keeps : Keeps protocol (Stays .idle) (allowProvider cfg provider) := by
  apply keeps_bind
  · exact stays_effect idle_ne id
  · rintro ⟨allowed, previous, current⟩
    exact keeps_bind (keeps_onlyIf (stays idle_ne (uses_recordCircuitTransition _ _ _ _)
      not_counting_of_recording)) fun _ => keeps_pure _

theorem createPayment_wp (payment : Payment) (data : PaymentInput) {s : Locals} :
    wp protocol (createPayment provider payment data)
      (fun r s' g => s' = s ∧ g = afterCall provider r) s (.inflight provider) := by
  simp only [createPayment, perform, wp_bind, wp_effect, orRaise_ok, wp_await]
  refine ⟨trivial, fun _ _ => ⟨trivial, fun r _ => ?_⟩⟩
  cases r with
  | ok result => exact ⟨trivial, rfl⟩
  | error x => cases x <;> exact ⟨trivial, rfl⟩

theorem callProvider_wp (payment : Payment) (data : PaymentInput) {s : Locals} :
    wp protocol (callProvider provider payment data)
      (fun r s' g => s' = s ∧ g = afterCall provider r) s (.inflight provider) := by
  simp only [callProvider, wp_bind, perform, wp_effect]
  refine ⟨trivial, ?_⟩
  rintro (_ | semaphore) -
  · exact createPayment_wp provider payment data
  · simp only [orRaise_ok, wp_bind, wp_await, wp_effect]
    refine ⟨trivial, ?_⟩
    rintro (x | ⟨⟩) h
    · obtain rfl : x = .cancelled := h
      exact ⟨rfl, rfl⟩
    · simp only [orRaise_ok, wp_ensure]
      apply wp_mono (createPayment_wp provider payment data)
      rintro r s' g ⟨rfl, rfl⟩
      cases r with
      | ok result => exact ⟨trivial, fun _ _ => ⟨rfl, rfl⟩⟩
      | error x => cases x <;> exact ⟨trivial, fun _ _ => ⟨rfl, rfl⟩⟩

/-- The stage an attempt is left in once its circuit has been told of a success. -/
def afterRecord : Except Exn Unit → Stage
  | .ok _ => .inflight provider
  | .error _ => .idle

theorem recordCircuitTransition_wp (previous current : CircuitState) {s : Locals} :
    wp protocol (recordCircuitTransition cfg provider previous current)
      (fun r _ g => g = afterRecord provider r) s (.inflight provider) := by
  simp only [recordCircuitTransition, newEvent, uuid4, now, perform, wp_onlyIf, wp_bind, wp_effect,
    orRaise_ok, wp_pure, wp_await]
  split
  · refine ⟨trivial, fun id _ => ⟨trivial, fun occurredAt _ => ⟨trivial, fun answer _ => ?_⟩⟩⟩
    cases answer <;> rfl
  · rfl

theorem recordSuccess_wp {s : Locals} :
    wp protocol (recordSuccess cfg provider) (fun r _ g => g = afterRecord provider r) s
      (.inflight provider) := by
  simp only [recordSuccess, wp_bind, perform, wp_effect]
  refine ⟨trivial, fun moved _ => ?_⟩
  simp only [orRaise_ok, wp_onlyIf]
  split
  · exact recordCircuitTransition_wp cfg provider _ _
  · rfl

theorem recordFailure_keeps : Keeps protocol (Stays .idle) (recordFailure cfg provider) :=
  keeps_bind (stays_effect idle_ne id) fun _ =>
    keeps_onlyIf (stays idle_ne (uses_recordCircuitTransition _ _ _ _) not_counting_of_recording)

theorem appendAttempt_keeps (attemptNumber : ℕ) (result : AttemptResult) (latencyMs : ℚ)
    (errorCode : Option String) :
    Keeps protocol (Stays .idle) (appendAttempt provider attemptNumber result latencyMs errorCode) :=
  keeps_bind (stays idle_ne uses_now fun e h => not_counting_of_recording e
    (Effect.recording_of_hosting e h)) fun _ => keeps_modify fun _ _ h => h

theorem afterError_wp {α : Type} (attemptNumber : ℕ) (started : Seconds) (x : Exn) {s : Locals} :
    wp protocol (afterError cfg provider attemptNumber started x) (fun _ _ g => g = .idle) s
      (afterCall provider (.error x : Except Exn α)) := by
  cases x with
  | provider error =>
    simp only [afterError, latencySince, now, perform, wp_bind, wp_effect, wp_pure, orRaise_ok]
    refine ⟨trivial, fun _ _ => ⟨rfl, fun _ _ => ?_⟩⟩
    apply wp_mono (recordFailure_keeps cfg provider s _ rfl)
    rintro (x | _) s' g hg
    · exact hg
    · exact keeps_bind (keeps_onlyIf (stays_effect idle_ne id)) (fun _ => appendAttempt_keeps provider _ _ _ _) s' _ hg
  | cancelled => rfl
  | _ => exact ⟨trivial, fun _ _ => ⟨rfl, fun _ _ => rfl⟩⟩

/-- Between its start and its end an attempt is in flight once, and not afterwards. -/
theorem operation_keeps (payment : Payment) (data : PaymentInput) :
    Keeps protocol (Stays .idle) (operation cfg provider payment data) := by
  refine keeps_bind keeps_get fun s => keeps_bind (allowProvider_keeps cfg provider) fun allowed =>
    keeps_ite (keeps_raise _) ?_
  rintro s' _ rfl
  simp only [now, perform, wp_bind, wp_effect, orRaise_ok, wp_attempt]
  refine ⟨trivial, fun started _ => ⟨trivial, fun _ _ => ?_⟩⟩
  apply wp_mono (callProvider_wp provider payment data)
  rintro r s'' g ⟨rfl, rfl⟩
  cases r with
  | error x =>
    rw [wp_bind]
    apply wp_mono (afterError_wp cfg provider _ started x)
    rintro (_ | _) s' g rfl <;> rfl
  | ok result =>
    rw [wp_bind]
    apply wp_mono (recordSuccess_wp cfg provider)
    rintro (x | _) s' g rfl
    · rfl
    · simp only [afterRecord, orRaise_ok, latencySince, now, perform, wp_bind, wp_effect, wp_pure]
      refine ⟨trivial, fun ended _ => ⟨rfl, fun _ _ => ?_⟩⟩
      apply wp_mono (appendAttempt_keeps provider _ _ _ _ s' _ rfl)
      rintro (_ | _) s'' g hg <;> exact hg

/-- The call routes a new payment. -/
def creates : Call → Bool
  | .create _ => true
  | _ => false

def first (c : Call) : Stage := if creates c then .idle else .absent

def discipline : Discipline Call Effect Effect.Reply (Except Exn Result) Stage :=
  ⟨fun _ => protocol, first, fun c _ g => g = first c⟩

theorem neutral_stays {g₀ : Stage} (hg₀ : ∀ p, g₀ ≠ .inflight p) (s : Locals) (g : Stage)
    (e : Effect) (hg : Stays g₀ s g) (h : ¬ e.attempting) :
    protocol.ok g e ∧ ∀ r, protocol.may g e r → Stays g₀ s (protocol.next g e r) := by
  obtain rfl : g = g₀ := hg
  have he : ¬ counting e := by
    cases e with
    | stats e => exact absurd trivial h
    | _ => exact id
  exact ⟨(neutral hg₀ he).1, fun r _ => (neutral hg₀ he).2 r⟩

theorem run_follows (c : Call) :
    ((c.run cfg).start {}).Follows protocol (discipline.post c) (first c) := by
  apply start_follows
  cases c with
  | create data =>
    exact keeps_bind (keeps_create (neutral_stays idle_ne) (fun _ _ _ h => h)
      (operation_keeps cfg) data) (fun _ => keeps_pure _) {} _ rfl
  | refund paymentId amount =>
    exact keeps_bind (keeps_refund (neutral_stays absent_ne) paymentId amount)
      (fun _ => keeps_pure _) {} _ rfl
  | recover provider =>
    have record : Keeps protocol (Stays .absent) (recordSuccess cfg provider) :=
      keeps_bind (stays_effect absent_ne id)
        fun _ => keeps_onlyIf (stays absent_ne (uses_recordCircuitTransition _ _ _ _)
          not_counting_of_recording)
    exact keeps_bind record (fun _ => keeps_pure _) {} _ rfl

end PySwitch.Inflight
