import PySwitch.LedgerProtocol
import PySwitch.VisitProtocol

namespace PySwitch.Timeouts

open Async Program Service Visits

/-- One of the errors leaves it open whether the provider has charged. -/
def TimedOut (errors : List ProviderError) : Prop :=
  ∃ error ∈ errors, error.code = "PROVIDER_TIMEOUT"

/-- The visit is to the only provider that is left. -/
def Alone (d : Draft) : Prop := ∀ p ∈ d.rest, p = d.provider

/-- An error ends the visit and makes the call go on to the candidates that are left. -/
def GivesUp (policy : RetryPolicy) (d : Draft) (error : ProviderError) : Prop :=
  (isRetryable error = false ∨ d.errors.length + 1 = policy.maxAttempts) ∧
    error.code ∈ failoverErrors

def ok (g : Stage) : Effect → Prop
  | .circuit (.allowRequest p) => ∃ d, g = .asking d ∧ p = d.provider
  | .provider (.startPayment p _ _ _ _) => ∃ d, g = .permitted d ∧ p = d.provider
  | .provider (.finishPayment p _) => ∃ d, g = .calling d ∧ p = d.provider
  | _ => True

/-- What can be met when no visit with a timeout is given up for another provider, and nothing but
providers raises a `ProviderError`. -/
def may (policy : RetryPolicy) (g : Stage) : (e : Effect) → e.Reply → Prop
  | .circuit (.allowRequest _), r =>
    ∀ d, g = .asking d → r.1 = false → TimedOut d.errors → Alone d
  | .provider (.finishPayment _ _), .error (.provider error) =>
    ∀ d, g = .calling d → GivesUp policy d error → TimedOut (d.errors ++ [error]) → Alone d
  | .host (.sleep _), .error x => ∀ error, x ≠ .provider error
  | .semaphore (.acquire _ _), .error x => ∀ error, x ≠ .provider error
  | .store (.save _), .error x => ∀ error, x ≠ .provider error
  | .store (.saveWithEvents _ _), .error x => ∀ error, x ≠ .provider error
  | .store (.append _), .error x => ∀ error, x ≠ .provider error
  | .coordinator (.complete _ _ _), .error x => ∀ error, x ≠ .provider error
  | _, _ => True

def protocol (cfg : Config) : Protocol Effect Effect.Reply Stage :=
  ⟨ok, may cfg.retryPolicy, next cfg⟩

/-- A program that raises no `ProviderError`. -/
def Foreign {α : Type} (r : Except Exn α) : Prop := ∀ error, r ≠ .error (.provider error)

theorem foreign_ok {α : Type} (a : α) : Foreign (.ok a : Except Exn α) := nofun

theorem foreign_error {α : Type} {x : Exn} (h : ∀ error, x ≠ .provider error) :
    Foreign (.error x : Except Exn α) :=
  fun error raised => h error (Except.error.inj raised)

theorem Foreign.cast {α β : Type} {x : Exn} (h : Foreign (.error x : Except Exn α)) :
    Foreign (.error x : Except Exn β) :=
  foreign_error fun error same => h error (congrArg Except.error same)

/-- Completing a claim raises no `ProviderError`. -/
def Polite (c : Coordinator) : Prop := ∀ key fingerprint paymentId,
  Ends Ledger.may Foreign (c.complete key fingerprint paymentId)

theorem polite_redis (sha256 : List Char → String) (ttl : ℕ) : Polite (.redis sha256 ttl) :=
  fun _ _ _ => Ledger.ends_guarded _

theorem polite_direct : Polite .direct := by
  intro key fingerprint paymentId s
  simp only [Coordinator.direct, perform, wp_await, wp_effect]
  refine ⟨trivial, fun r hr => ?_⟩
  cases r with
  | ok _ => exact foreign_ok _
  | error x => exact foreign_error hr

section Visit

variable {cfg : Config} {d : Draft} {s : Locals} {g : Stage}

theorem recording_wp (placed : g ≠ .ordered) (p : Provider) (previous current : CircuitState) :
    wp (protocol cfg) (onlyIf (previous ≠ current) (recordCircuitTransition cfg p previous current))
      (fun r _ g' => g' = g ∧ Foreign r) s g := by
  have drawn (id : Uuid) : (protocol cfg).next g (.host .uuid4) id = g := draw_placed placed id
  simp only [recordCircuitTransition, newEvent, uuid4, now, perform, wp_onlyIf, wp_bind, wp_effect,
    orRaise_ok, wp_pure, wp_await, drawn]
  split
  · split
    · refine ⟨trivial, fun id _ => ⟨trivial, fun _ _ => ⟨trivial, fun r raised => ?_⟩⟩⟩
      cases r with
      | ok _ => exact ⟨rfl, foreign_ok _⟩
      | error x => exact ⟨rfl, foreign_error raised⟩
    · exact ⟨trivial, foreign_ok _⟩
  · exact ⟨trivial, foreign_ok _⟩

theorem permitted_placed (d : Draft) : Stage.permitted d ≠ .ordered := nofun

theorem abandoned_placed (d : Draft) : Stage.abandoned d.id ≠ .ordered := nofun

theorem allowProvider_wp : wp (protocol cfg) (allowProvider cfg d.provider) (fun r _ g' =>
    match r with
    | .ok allowed => g' = (Stage.asking d).permit allowed
    | .error x => ∀ error, x ≠ .provider error) s (.asking d) := by
  simp only [allowProvider, perform, wp_bind, wp_effect, orRaise_ok]
  refine ⟨⟨d, rfl, rfl⟩, ?_⟩
  rintro ⟨allowed, previous, current⟩ -
  have placed : (Stage.asking d).permit allowed ≠ .ordered := by
    cases allowed with
    | false => exact leave_placed d .refused "CIRCUIT_OPEN"
    | true => exact permitted_placed d
  apply wp_mono (recording_wp placed d.provider previous current)
  rintro r s' g' ⟨rfl, foreign⟩
  cases r with
  | ok _ => rfl
  | error x => exact fun error h => foreign error (by rw [h])

/-- Where a call of a provider leaves the stage. -/
def Called (policy : RetryPolicy) (d : Draft) (r : Except Exn ProviderPaymentResult)
    (g' : Stage) : Prop :=
  g' ≠ .ordered ∧ ∀ error, r = .error (.provider error) → g' = d.fail policy error

theorem createPayment_wp (payment : Payment) (data : PaymentInput) :
    wp (protocol cfg) (createPayment d.provider payment data)
      (fun r _ g' => Called cfg.retryPolicy d r g') s (.permitted d) := by
  simp only [createPayment, perform, wp_bind, wp_await, wp_effect, orRaise_ok]
  refine ⟨⟨d, rfl, rfl⟩, fun _ _ => ⟨⟨d, rfl, rfl⟩, fun r _ => ?_⟩⟩
  have called : Called cfg.retryPolicy d r ((Stage.calling d).answer cfg.retryPolicy r) := by
    refine ⟨answer_placed _ d r, ?_⟩
    rintro error rfl
    rfl
  cases r <;> exact called

theorem callProvider_wp (payment : Payment) (data : PaymentInput) :
    wp (protocol cfg) (callProvider d.provider payment data)
      (fun r _ g' => Called cfg.retryPolicy d r g') s (.permitted d) := by
  simp only [callProvider, perform, wp_bind, wp_effect]
  refine ⟨trivial, ?_⟩
  rintro (_ | semaphore) -
  · exact createPayment_wp payment data
  · simp only [orRaise_ok, wp_bind, wp_await, wp_effect]
    refine ⟨trivial, fun acquired foreign => ?_⟩
    cases acquired with
    | error x =>
      have called : Called cfg.retryPolicy d (.error x) (.abandoned d.id) :=
        ⟨abandoned_placed d, fun error h => absurd (Except.error.inj h) (foreign error)⟩
      exact called
    | ok _ =>
      simp only [orRaise_ok, wp_ensure]
      apply wp_mono (createPayment_wp payment data)
      intro r s' g' called
      exact ⟨trivial, fun _ _ => called⟩

theorem appendAttempt_wp (p : Provider) (attemptNumber : ℕ) (result : AttemptResult)
    (latencyMs : ℚ) (errorCode : Option String) :
    wp (protocol cfg) (appendAttempt p attemptNumber result latencyMs errorCode)
      (fun r _ g' => r = .ok () ∧ g' = g) s g := by
  simp only [appendAttempt, now, perform, wp_bind, wp_effect, orRaise_ok, wp_modify]
  exact ⟨trivial, fun _ _ => ⟨trivial, rfl⟩⟩

theorem afterError_wp (placed : g ≠ .ordered) (p : Provider) (attemptNumber : ℕ)
    (started : Seconds) (x : Exn) : wp (protocol cfg) (afterError cfg p attemptNumber started x)
      (fun r _ g' => Foreign r ∧ g' = g) s g := by
  cases x with
  | provider error =>
    simp only [afterError, latencySince, recordFailure, now, perform, wp_bind, wp_effect, wp_pure,
      orRaise_ok]
    refine ⟨trivial, fun _ _ => ⟨trivial, fun _ _ => ⟨trivial, fun moved _ => ?_⟩⟩⟩
    apply wp_mono (recording_wp (g := g) placed p moved.1 moved.2)
    rintro r s' g' ⟨rfl, foreign⟩
    cases r with
    | error y => exact ⟨foreign.cast, rfl⟩
    | ok _ =>
      simp only [orRaise_ok, wp_bind, wp_onlyIf, wp_effect]
      have append (result : AttemptResult) (latencyMs : ℚ) : wp (protocol cfg)
          (appendAttempt p attemptNumber result latencyMs (some error.code))
          (fun r _ g'' => Foreign r ∧ g'' = g') s' g' := by
        apply wp_mono (appendAttempt_wp ..)
        rintro r s'' g'' ⟨rfl, rfl⟩
        exact ⟨foreign_ok _, rfl⟩
      split
      · exact ⟨trivial, fun _ _ => append _ _⟩
      · exact append _ _
  | cancelled => exact ⟨foreign_ok _, rfl⟩
  | _ => exact ⟨trivial, fun _ _ => ⟨trivial, fun _ _ => ⟨foreign_ok _, rfl⟩⟩⟩

/-- How a round of the retry loop ends that raises a `ProviderError`. -/
def Tried (policy : RetryPolicy) (d : Draft) (r : Except Exn ProviderPaymentResult) (g' : Stage) :
    Prop :=
  ∀ error, r = .error (.provider error) →
    error.code = "CIRCUIT_OPEN" ∧ g' = d.leave .refused error.code ∨ g' = d.fail policy error

theorem tried_ok (policy : RetryPolicy) (d : Draft) (result : ProviderPaymentResult) (g : Stage) :
    Tried policy d (.ok result) g := nofun

theorem operation_wp (payment : Payment) (data : PaymentInput) :
    wp (protocol cfg) (operation cfg d.provider payment data)
      (fun r _ g' => Tried cfg.retryPolicy d r g') s (.asking d) := by
  simp only [operation, wp_bind, wp_get, orRaise_ok]
  apply wp_mono allowProvider_wp
  intro r s g h
  cases r with
  | error x => exact fun error raised => absurd (Except.error.inj raised) (h error)
  | ok allowed =>
    obtain rfl := h
    cases allowed with
    | false => exact fun error raised => .inl (by cases raised; exact ⟨rfl, rfl⟩)
    | true =>
      simp only [orRaise_ok, Bool.true_eq_false, if_false, perform, now, wp_bind, wp_effect,
        wp_attempt]
      refine ⟨trivial, fun started _ => ⟨trivial, fun _ _ => ?_⟩⟩
      apply wp_mono (callProvider_wp payment data)
      rintro r s g ⟨placed, failed⟩
      cases r with
      | error x =>
        simp only [wp_bind]
        apply wp_mono (afterError_wp placed d.provider _ started x)
        rintro r s' g' ⟨foreign, rfl⟩
        cases r with
        | error y => exact fun error raised => absurd raised (foreign.cast error)
        | ok _ => exact fun error raised => .inr (failed error (by cases raised; rfl))
      | ok result =>
        simp only [orRaise_ok, recordSuccess, latencySince, now, perform, wp_bind, wp_effect]
        refine ⟨trivial, fun moved _ => ?_⟩
        apply wp_mono (recording_wp (g := g) placed d.provider moved.1 moved.2)
        rintro r s' g' ⟨rfl, foreign⟩
        cases r with
        | error y => exact fun error raised => absurd raised (foreign.cast error)
        | ok _ =>
          simp only [orRaise_ok, appendAttempt, now, perform, wp_bind, wp_effect, wp_modify,
            wp_pure]
          exact ⟨trivial, fun _ _ => ⟨trivial, fun _ _ => ⟨trivial, fun _ _ => tried_ok _ d result _⟩⟩⟩

/-- How a visit ends that raises a `ProviderError`. -/
def Given {α : Type} (d : Draft) (r : Except Exn α) (g' : Stage) : Prop :=
  ∀ error, r = .error (.provider error) →
    ∃ errors ending, g' = Draft.leave { d with errors } ending error.code

theorem given_foreign {α : Type} {r : Except Exn α} (foreign : Foreign r) {g' : Stage} :
    Given d r g' :=
  fun error raised => absurd raised (foreign error)

theorem given_ok {α : Type} {a : α} {g' : Stage} : Given d (.ok a) g' := nofun

theorem given_other {α : Type} {x : Exn} {g' : Stage} (other : ∀ error, x ≠ .provider error) :
    Given d (.error x : Except Exn α) g' :=
  given_foreign (foreign_error other)

theorem retryFrom_wp (payment : Payment) (data : PaymentInput)
    {lastError : Option ProviderError} {attempt remaining : ℕ} (count : attempt = d.errors.length)
    (bound : attempt + remaining = cfg.retryPolicy.maxAttempts)
    (more : 0 < remaining ∨ lastError = none) :
    wp (protocol cfg)
      (retryFrom (operation cfg d.provider payment data) cfg.retryPolicy lastError attempt
        remaining) (fun r _ g' => Given d r g') s (.asking d) := by
  induction remaining generalizing d s lastError attempt with
  | zero =>
    obtain rfl : lastError = none := more.resolve_left (Nat.lt_irrefl 0)
    exact given_other fun error same => by cases same
  | succ remaining ih =>
    simp only [retryFrom, wp_bind, wp_attempt]
    apply wp_mono (operation_wp payment data)
    intro r s' g tried
    cases r with
    | ok result => exact given_ok
    | error x =>
      cases x with
      | provider error =>
        obtain ⟨refused, rfl⟩ | rfl := tried error rfl
        · have final : isRetryable error = false := by simp [isRetryable, refused, retryableErrors]
          simp only [orRaise_ok, final, true_or, if_true, wp_raise]
          exact fun error raised => ⟨d.errors, .refused, by cases raised; rfl⟩
        · by_cases last : isRetryable error = false ∨ attempt + 1 = cfg.retryPolicy.maxAttempts
          · simp only [orRaise_ok, Draft.fail, ← count, if_pos last, wp_raise]
            exact fun error' raised => ⟨d.errors ++ [error], .gaveUp, by cases raised; rfl⟩
          · have foreign (message : String) : Given (α := ProviderPaymentResult × ℕ) d
                (.error (.other message)) (d.fail cfg.retryPolicy error) :=
              given_other fun error same => by cases same
            simp only [orRaise_ok, if_neg last, wp_bind]
            refine wp_delayFor trivial (fun _ => rfl) (fun _ => foreign) fun fits delay => ?_
            simp only [orRaise_ok, Draft.fail, ← count, if_neg last, if_neg (Nat.not_le.mpr fits),
              Service.sleep, perform, wp_bind, wp_await, wp_effect]
            refine ⟨trivial, fun r foreign => ?_⟩
            cases r with
            | error x => exact given_foreign (foreign_error foreign)
            | ok _ =>
              have counted : attempt + 1 = (d.raised error).errors.length := by
                simp [Draft.raised, count]
              exact ih (d := d.raised error) counted (by omega) (.inl (by omega))
      | _ => exact given_other fun error same => by cases same

theorem attemptProvider_wp (payment : Payment) (data : PaymentInput) (fresh : d.errors = []) :
    wp (protocol cfg) (attemptProvider cfg payment d.provider data)
      (fun r _ g' => Given d r g') s (.asking d) := by
  simp only [attemptProvider, runWithRetry, wp_bind, wp_modify, wp_attempt, orRaise_ok]
  apply wp_mono (retryFrom_wp payment data (by rw [fresh]; rfl) (Nat.zero_add _) (.inr rfl))
  intro r s' g given
  cases r with
  | ok result => exact given_ok
  | error x =>
    cases x with
    | provider error => exact fun error' raised => given error' (by cases raised; rfl)
    | _ => exact given_other fun error same => by cases same

end Visit

section Create

variable {cfg : Config} {s : Locals} {g : Stage}

theorem free {e : Effect} (he : ¬ e.attempting) (g : Stage) : ok g e := by
  cases e with
  | circuit e => exact absurd trivial he
  | provider e => cases e <;> first | exact absurd trivial he | trivial
  | _ => trivial

/-- Nothing is asked of the effects outside the attempts. -/
theorem anywhere (_ : Locals) (g : Stage) (e : Effect) (_ : True) (he : ¬ e.attempting) :
    (protocol cfg).ok g e ∧ ∀ r, (protocol cfg).may g e r → True :=
  ⟨free he g, fun _ _ => trivial⟩

theorem settling_free (_ : Locals) (g : Stage) (e : Effect) (_ : True) (he : e.settling) :
    (protocol cfg).ok g e ∧ ∀ r, (protocol cfg).may g e r → True := by
  refine ⟨?_, fun _ _ => trivial⟩
  cases e with
  | circuit e => cases e <;> first | exact he.elim | trivial
  | provider e => exact he.elim
  | _ => trivial

theorem save_wp (p : Payment) (events : List EventEnvelope) :
    wp (protocol cfg) (save cfg p events) (fun r _ _ => Foreign r) s g := by
  unfold save
  split
  · simp only [perform, wp_await, wp_effect]
    refine ⟨trivial, fun r foreign => ?_⟩
    cases r with
    | error x => exact foreign_error foreign
    | ok _ => exact foreign_ok _
  · simp only [perform, wp_bind, wp_await, wp_effect]
    refine ⟨trivial, fun r foreign => ?_⟩
    cases r with
    | error x => exact foreign_error foreign
    | ok _ =>
      simp only [orRaise_ok, wp_onlyIf, wp_await, wp_effect]
      split
      · refine ⟨trivial, fun r foreign => ?_⟩
        cases r with
        | error x => exact foreign_error foreign
        | ok _ => exact foreign_ok _
      · exact foreign_ok _

variable (polite : Polite cfg.coordinator)

include polite

theorem complete_wp (key : RecordKey) (fingerprint : String) (paymentId : Uuid) :
    wp (protocol cfg) (cfg.coordinator.complete key fingerprint paymentId)
      (fun r _ _ => Foreign r) s g := by
  apply wp_of_uses_ends (J := fun _ => True) (cfg.coordinator.complete_uses _ _ _) (polite _ _ _)
  · intro g' e _ he
    refine ⟨free (e.not_attempting_of_coordinating he) g', fun r hr => ⟨?_, trivial⟩⟩
    cases e with
    | coordinator e =>
      cases e with
      | complete =>
        cases r with
        | ok => trivial
        | error x => exact hr
      | _ => trivial
    | redis e => trivial
    | _ => exact he.elim
  · trivial
  · exact fun r g' foreign _ => foreign

theorem finish_wp (data : PaymentInput) (fingerprint : String) (p : Payment) (last : EventType) :
    wp (protocol cfg) (finish cfg data fingerprint p last) (fun r _ _ => Foreign r) s g := by
  simp only [finish, wp_bind, wp_modify, orRaise_ok]
  apply wp_mono (succeeds_paymentEvents settling_free p last _ g trivial)
  rintro _ s' g' ⟨⟨events, rfl⟩, -⟩
  simp only [orRaise_ok, wp_bind]
  apply wp_mono (save_wp p events)
  intro r s' g' foreign
  cases r with
  | error x => exact foreign.cast
  | ok _ =>
    simp only [orRaise_ok, wp_bind]
    apply wp_mono (complete_wp polite data.key fingerprint p.id)
    intro r s' g' foreign
    cases r with
    | error x => exact foreign.cast
    | ok _ => exact foreign_ok _

theorem tryCandidate_wp (data : PaymentInput) (fingerprint : String) (payment : Payment) {d : Draft}
    (fresh : d.errors = []) :
    wp (protocol cfg) (tryCandidate cfg data fingerprint payment d.provider)
      (fun r _ g' => Given d r g') s (.asking d) := by
  simp only [tryCandidate, wp_bind]
  apply wp_mono (attemptProvider_wp payment data fresh)
  intro r s' g' given
  cases r with
  | error x => exact fun error raised => given error (by cases raised; rfl)
  | ok result =>
    simp only [orRaise_ok, current, wp_bind, wp_get, wp_pure]
    apply wp_mono (finish_wp polite data fingerprint _ .paymentSucceeded)
    intro r s'' g'' foreign
    cases r with
    | ok _ => exact given_ok
    | error x => exact given_foreign foreign.cast

theorem tryCandidates_wp (data : PaymentInput) (fingerprint : String) (payment : Payment)
    (id : Uuid) (visits : List Visit) (candidates : List Provider) :
    wp (protocol cfg) (tryCandidates cfg data fingerprint payment candidates)
      (fun _ _ _ => True) s (visit id visits candidates) := by
  induction candidates generalizing s visits with
  | nil => trivial
  | cons provider rest ih =>
    simp only [tryCandidates, wp_bind, wp_attempt]
    apply wp_mono (tryCandidate_wp polite data fingerprint payment
      (d := ⟨id, visits, provider, rest, []⟩) rfl)
    intro r s' g' given
    cases r with
    | ok p => trivial
    | error x =>
      cases x with
      | provider error =>
        obtain ⟨errors, ending, rfl⟩ := given error rfl
        simp only [orRaise_ok, wp_bind, wp_modify, wp_ite, wp_pure]
        split
        · trivial
        · rename_i more
          rw [Draft.leave, if_pos (not_not.mp more)]
          exact ih _
      | _ => trivial

theorem orchestrate_wp (data : PaymentInput) (fingerprint : String) :
    wp (protocol cfg) (orchestrate cfg data fingerprint) (fun _ _ _ => True) s .ordered := by
  simp only [orchestrate, newPayment, uuid4, now, perform, wp_bind, wp_effect, wp_pure, wp_modify,
    orRaise_ok]
  refine ⟨trivial, fun id _ => ⟨trivial, fun _ _ => ⟨trivial, fun _ _ => ?_⟩⟩⟩
  apply wp_mono (keeps_of_uses (I := fun _ g => g = .routing id)
    (uses_healthyProviders cfg.providers) ?_ _ _ rfl)
  · rintro r s' g rfl
    cases r with
    | error x => trivial
    | ok healthy =>
      simp only [orRaise_ok, wp_bind, wp_await, wp_effect]
      refine ⟨trivial, fun r _ => ?_⟩
      cases r with
      | error x => trivial
      | ok provider =>
        simp only [orRaise_ok, wp_bind]
        apply wp_mono (tryCandidates_wp polite data fingerprint _ id []
          (provider :: healthy.filter fun p => p ≠ provider))
        intro r s' g' _
        cases r with
        | error x => trivial
        | ok completed =>
          cases completed with
          | some p => trivial
          | none =>
            simp only [orRaise_ok, current, wp_bind, wp_get, wp_pure]
            apply wp_mono (finish_wp polite data fingerprint _ .paymentFailed)
            intro r s' g' _
            cases r with
            | error x => trivial
            | ok _ =>
              simp only [orRaise_ok, wp_bind, wp_get]
              split <;> trivial
  · rintro s' g e rfl ⟨p, rfl⟩
    exact ⟨trivial, fun _ _ => rfl⟩

theorem createClaimed_wp (data : PaymentInput) (fingerprint : String) :
    wp (protocol cfg) (createClaimed cfg data fingerprint) (fun _ _ _ => True) s .ordered := by
  simp only [createClaimed, perform, wp_bind, wp_await, wp_effect]
  refine ⟨trivial, fun r _ => ?_⟩
  cases r with
  | error x => trivial
  | ok existing =>
    cases existing with
    | none => exact orchestrate_wp polite data fingerprint
    | some existing =>
      simp only [orRaise_ok, wp_ite, wp_raise]
      split
      · trivial
      · rw [wp_bind]
        apply wp_mono (complete_wp polite data.key fingerprint existing.id)
        rintro r s' g -
        cases r <;> trivial

theorem create_wp (data : PaymentInput) :
    wp (protocol cfg) (create cfg data) (fun _ _ _ => True) s .ordered := by
  simp only [create, wp_bind]
  apply wp_mono (keeps_of_uses (I := fun _ g => g = .ordered)
    (cfg.coordinator.acquire_uses data.key (requestFingerprint cfg.sha256 data)) ?_ _ _ rfl)
  · rintro r s' g rfl
    cases r with
    | error x => trivial
    | ok decision =>
      obtain ⟨status, paymentId⟩ := decision
      cases status with
      | conflict => trivial
      | completed =>
        exact keeps_replay (fun s g e h out _ => anywhere s g e h out) ⟨.completed, paymentId⟩ _ _
          trivial
      | claimed =>
        simp only [orRaise_ok, wp_bind, wp_modify, wp_attempt]
        apply wp_mono (createClaimed_wp polite data _)
        intro r s' g' _
        cases r with
        | ok p => trivial
        | error x =>
          simp only [wp_bind]
          apply wp_mono (keeps_release (fun s g e h out _ => anywhere s g e h out) data _ _ _
            trivial)
          intro r s' g' _
          cases r <;> trivial
  · rintro s' g e rfl he
    refine ⟨free (e.not_attempting_of_coordinating he) _, fun r _ => ?_⟩
    cases e <;> first | exact he.elim | rfl

end Create

def discipline (cfg : Config) : Discipline Call Effect Effect.Reply (Except Exn Result) Stage :=
  ⟨fun _ => protocol cfg, first, fun _ _ _ => True⟩

theorem outside_placed : Stage.outside ≠ .ordered := nofun

theorem run_follows {cfg : Config} (polite : Polite cfg.coordinator) (c : Call) :
    ((c.run cfg).start {}).Follows (protocol cfg) (fun _ _ => True) (first c) := by
  apply start_follows
  cases c with
  | create data =>
    simp only [Call.run, wp_bind]
    apply wp_mono (create_wp polite data)
    intro r s g _
    cases r <;> trivial
  | refund paymentId amount =>
    simp only [Call.run, wp_bind]
    apply wp_mono (keeps_refund anywhere paymentId amount _ _ trivial)
    intro r s g _
    cases r <;> trivial
  | recover provider =>
    simp only [Call.run, Service.recordSuccess, perform, wp_bind, wp_effect, orRaise_ok]
    refine ⟨trivial, fun moved _ => ?_⟩
    apply wp_mono (recording_wp outside_placed provider moved.1 moved.2)
    intro r s g _
    cases r <;> trivial

end PySwitch.Timeouts
