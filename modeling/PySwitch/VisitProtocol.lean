import PySwitch.LedgerProtocol
import PySwitch.ServiceOutcome
import PySwitch.Visits

namespace PySwitch.Visits

open Async Program Service

/-- The effects that neither ask a circuit nor call a provider for a payment nor save one. -/
def still (profile : Profile) : Effect → Prop
  | .host .now => True
  | .host .uuid4 => True
  | .host .random => True
  | .circuit (.recordSuccess _) => True
  | .circuit (.recordFailure _) => True
  | .stats _ => True
  | .semaphore (.current _) => True
  | .semaphore (.release _ _) => True
  | .provider (.healthCheck _) => True
  | .store (.append _) => True
  | .coordinator _ => profile.coordinator = .memory
  | .redis _ => True
  | _ => False

variable {profile : Profile} {cfg : Config}

theorem draw_placed {g : Stage} (h : g ≠ .ordered) (id : Uuid) : g.draw id = g := by
  cases g with
  | ordered => exact absurd rfl h
  | _ => rfl

theorem still_neutral {g : Stage} {e : Effect} (placed : g ≠ .ordered) (he : still profile e) :
    ok profile cfg g e ∧ ∀ r, next cfg g e r = g := by
  cases e with
  | host e =>
    cases e with
    | uuid4 => exact ⟨trivial, draw_placed placed⟩
    | sleep delay => exact he.elim
    | _ => exact ⟨trivial, fun _ => rfl⟩
  | circuit e =>
    cases e with
    | allowRequest p => exact he.elim
    | _ => exact ⟨trivial, fun _ => rfl⟩
  | semaphore e =>
    cases e with
    | acquire p n => exact he.elim
    | _ => exact ⟨trivial, fun _ => rfl⟩
  | provider e =>
    cases e with
    | healthCheck p => exact ⟨trivial, fun _ => rfl⟩
    | _ => exact he.elim
  | store e =>
    cases e with
    | append events => exact ⟨trivial, fun _ => rfl⟩
    | _ => exact he.elim
  | coordinator e => exact ⟨he, fun _ => rfl⟩
  | stats e => exact ⟨trivial, fun _ => rfl⟩
  | redis e => exact ⟨trivial, fun _ => rfl⟩
  | refundLock e => exact he.elim

/-- The local variables and the stage are what they were. -/
def Stays (s : Locals) (g : Stage) (s' : Locals) (g' : Stage) : Prop := s' = s ∧ g' = g

theorem stays_still {s : Locals} {g : Stage} (placed : g ≠ .ordered) (s' : Locals) (g' : Stage)
    (e : Effect) (h : Stays s g s' g') (he : still profile e) :
    (protocol profile cfg).ok g' e ∧ ∀ r, (protocol profile cfg).may g' e r →
      Stays s g s' ((protocol profile cfg).next g' e r) := by
  obtain ⟨rfl, rfl⟩ := h
  obtain ⟨hok, hn⟩ : ok profile cfg g' e ∧ ∀ r, next cfg g' e r = g' := still_neutral placed he
  exact ⟨hok, fun r _ => ⟨rfl, hn r⟩⟩

theorem succeeds_still {s : Locals} {g : Stage} (placed : g ≠ .ordered) {e : Effect}
    (he : still profile e) : Succeeds (protocol profile cfg) (Stays s g) (perform e) :=
  succeeds_effect fun s' g' h => stays_still placed s' g' e h he

theorem stays_settling {s : Locals} {g : Stage} (placed : g ≠ .ordered) (s' : Locals) (g' : Stage)
    (e : Effect) (h : Stays s g s' g') (he : e.settling) :
    (protocol profile cfg).ok g' e ∧ ∀ r, (protocol profile cfg).may g' e r →
      Stays s g s' ((protocol profile cfg).next g' e r) := by
  apply stays_still placed s' g' e h
  cases e with
  | host e => cases e <;> first | exact he.elim | trivial
  | circuit e => cases e <;> first | exact he.elim | trivial
  | stats e => trivial
  | semaphore e => cases e <;> first | exact he.elim | trivial
  | store e => cases e <;> first | exact he.elim | trivial
  | _ => exact he.elim

theorem succeeds_record {s : Locals} {g : Stage} (placed : g ≠ .ordered) (provider : Provider)
    (previous current : CircuitState) : Succeeds (protocol profile cfg) (Stays s g)
      (recordCircuitTransition cfg provider previous current) :=
  succeeds_recordCircuitTransition (stays_settling placed) (fun _ _ _ _ _ => id) _ _ _

/-- What stays put before a program can be left out. -/
theorem wp_after {α β : Type} {m : Service α} {f : α → Service β} {s : Locals} {g : Stage}
    {Q : Except Exn β → Locals → Stage → Prop}
    (hm : Succeeds (protocol profile cfg) (Stays s g) m)
    (hf : ∀ a, wp (protocol profile cfg) (f a) Q s g) :
    wp (protocol profile cfg) (m >>= f) Q s g := by
  rw [wp_bind]
  apply wp_mono (hm s g ⟨rfl, rfl⟩)
  rintro _ s' g' ⟨⟨a, rfl⟩, rfl, rfl⟩
  exact hf a

theorem routing_placed (id : Uuid) : Stage.routing id ≠ .ordered := nofun

theorem failed_placed (id : Uuid) (visits : List Visit) : Stage.failed id visits ≠ .ordered := nofun

theorem returned_placed (d : Draft) (result : ProviderPaymentResult) :
    Stage.returned d result ≠ .ordered := nofun

theorem visit_placed (id : Uuid) (visits : List Visit) (candidates : List Provider) :
    visit id visits candidates ≠ .ordered := by
  cases candidates <;> exact nofun

theorem leave_placed (d : Draft) (ending : Ending) (code : String) :
    d.leave ending code ≠ .ordered := by
  unfold Draft.leave
  split
  · exact visit_placed _ _ _
  · exact nofun

theorem fail_placed (policy : RetryPolicy) (d : Draft) (error : ProviderError) :
    d.fail policy error ≠ .ordered := by
  unfold Draft.fail
  split
  · exact leave_placed _ _ _
  · split <;> exact nofun

theorem answer_placed (policy : RetryPolicy) (d : Draft) (r : Except Exn ProviderPaymentResult) :
    (Stage.calling d).answer policy r ≠ .ordered := by
  cases r with
  | ok result => exact nofun
  | error x =>
    cases x with
    | provider error => exact fail_placed policy d error
    | _ => exact nofun

section Visit

variable {d : Draft} {s : Locals}

theorem allowProvider_wp :
    wp (protocol profile cfg) (allowProvider cfg d.provider) (fun r s' g' => ∃ allowed,
      r = .ok allowed ∧ s' = s ∧ g' = (Stage.asking d).permit allowed) s (.asking d) := by
  unfold allowProvider
  rw [wp_bind, wp_effect]
  refine ⟨⟨d, rfl, rfl⟩, fun answer _ => ?_⟩
  obtain ⟨allowed, previous, current⟩ := answer
  have placed : (Stage.asking d).permit allowed ≠ .ordered := by
    cases allowed with
    | false => exact leave_placed d .refused "CIRCUIT_OPEN"
    | true => exact nofun
  have recorded : Succeeds (protocol profile cfg) (Stays s ((Stage.asking d).permit allowed))
      (onlyIf (previous ≠ current) (recordCircuitTransition cfg d.provider previous current)) :=
    succeeds_onlyIf (succeeds_record placed _ _ _)
  simp only [orRaise_ok]
  refine wp_after recorded fun _ => ?_
  exact ⟨allowed, rfl, rfl, rfl⟩

theorem createPayment_wp (attempts : 0 < cfg.retryPolicy.maxAttempts) {payment : Payment}
    (id : payment.id = d.id) (data : PaymentInput) :
    wp (protocol profile cfg) (createPayment d.provider payment data) (fun r s' g' =>
      s' = s ∧ g' = (Stage.calling d).answer cfg.retryPolicy r) s (.permitted d) := by
  simp only [createPayment, perform, wp_bind, wp_await, wp_effect, orRaise_ok]
  refine ⟨⟨d, rfl, rfl, id, attempts⟩, fun _ _ => ⟨⟨d, rfl, rfl, id⟩, fun r _ => ?_⟩⟩
  cases r <;> exact ⟨trivial, rfl⟩

/-- A provider call ends with what the provider answers or with a cancellation. -/
theorem callProvider_wp (attempts : 0 < cfg.retryPolicy.maxAttempts) {payment : Payment}
    (id : payment.id = d.id) (data : PaymentInput) :
    wp (protocol profile cfg) (callProvider d.provider payment data) (fun r s' g' =>
      s' = s ∧ g' = (Stage.calling d).answer cfg.retryPolicy r) s (.permitted d) := by
  simp only [callProvider, perform, wp_bind, wp_effect]
  refine ⟨trivial, fun semaphore _ => ?_⟩
  cases semaphore with
  | none => exact createPayment_wp attempts id data
  | some semaphore =>
    simp only [orRaise_ok, wp_bind, wp_await, wp_effect]
    refine ⟨⟨d, rfl⟩, fun r hr => ?_⟩
    cases r with
    | error x =>
      obtain rfl : x = .cancelled := hr
      exact ⟨rfl, rfl⟩
    | ok =>
      simp only [orRaise_ok, wp_ensure]
      apply wp_mono (createPayment_wp attempts id data)
      rintro r s' g' ⟨rfl, rfl⟩
      exact ⟨trivial, fun _ _ => ⟨rfl, rfl⟩⟩

/-- The handlers record an attempt for a `ProviderError` and for nothing else. -/
theorem afterError_wp {g : Stage} (placed : g ≠ .ordered) (provider : Provider) (before : ℕ)
    (started : Seconds) (x : Exn) :
    wp (protocol profile cfg) (afterError cfg provider (before + 1) started x) (fun r s' g' =>
      (∃ u, r = .ok u) ∧ g' = g ∧ match x with
        | .provider error => ∃ a, mark a = errorMark provider before error ∧
            s' = { s with attempts := s.attempts ++ [a] }
        | _ => s' = s) s g := by
  have latency : Succeeds (protocol profile cfg) (Stays s g) (latencySince started) :=
    succeeds_latencySince (stays_settling placed) started
  have finished (success : Bool) (latencyMs : ℚ) (code : Option String) :
      Succeeds (protocol profile cfg) (Stays s g)
        (perform (.stats (.finishRequest provider success latencyMs code))) :=
    succeeds_still placed trivial
  have other : wp (protocol profile cfg) (do
      let latencyMs ← latencySince started
      perform (.stats (.finishRequest provider false latencyMs (some "INTERNAL_ERROR"))))
      (fun r s' g' => (∃ u, r = .ok u) ∧ g' = g ∧ s' = s) s g := by
    refine wp_after latency fun latencyMs => wp_mono (finished _ _ _ s g ⟨rfl, rfl⟩) ?_
    rintro r s' g' ⟨hr, rfl, rfl⟩
    exact ⟨hr, rfl, rfl⟩
  cases x with
  | provider error =>
    have failure : Succeeds (protocol profile cfg) (Stays s g) (recordFailure cfg provider) :=
      succeeds_bind (succeeds_still placed trivial) fun _ =>
        succeeds_onlyIf (succeeds_record placed _ _ _)
    have counted : Succeeds (protocol profile cfg) (Stays s g)
        (onlyIf (isRetryable error = true) (perform (.stats (.countRetry provider)))) :=
      succeeds_onlyIf (succeeds_still placed trivial)
    unfold afterError
    refine wp_after latency fun latencyMs => wp_after (finished _ _ _) fun _ =>
      wp_after failure fun _ => wp_after counted fun _ => ?_
    refine wp_after (succeeds_still placed trivial) fun createdAt => ?_
    exact ⟨⟨_, rfl⟩, rfl, _, rfl, rfl⟩
  | cancelled => exact ⟨⟨(), rfl⟩, rfl, rfl⟩
  | _ => exact other

/-- Where a call can be when it is over. -/
def Left (policy : RetryPolicy) (g : Stage) : Prop :=
  match g with
  | .asking _ => policy.maxAttempts = 0
  | .permitted _ => False
  | .calling _ => False
  | .returned _ _ => False
  | .failed _ _ => False
  | .applying _ => False
  | _ => True

/-- How one round of the retry loop ends. -/
def Tried (policy : RetryPolicy) (d : Draft) (s : Locals) (r : Except Exn ProviderPaymentResult)
    (s' : Locals) (g' : Stage) : Prop :=
  match r with
  | .ok result => ∃ a, mark a = ⟨d.provider, d.errors.length + 1, .succeeded, none⟩ ∧
      s' = { s with attempts := s.attempts ++ [a] } ∧ g' = .returned d result
  | .error (.provider error) =>
    error.code = "CIRCUIT_OPEN" ∧ s' = s ∧ g' = d.leave .refused error.code ∨
      ∃ a, mark a = errorMark d.provider d.errors.length error ∧
        s' = { s with attempts := s.attempts ++ [a] } ∧ g' = d.fail policy error
  | .error _ => g' = .abandoned d.id

theorem operation_wp (attempts : 0 < cfg.retryPolicy.maxAttempts) {payment : Payment}
    (id : payment.id = d.id) (data : PaymentInput) (before : s.attempts.length = d.errors.length) :
    wp (protocol profile cfg) (operation cfg d.provider payment data)
      (Tried cfg.retryPolicy d s) s (.asking d) := by
  simp only [operation, wp_bind, wp_get, orRaise_ok]
  apply wp_mono allowProvider_wp
  rintro _ s g ⟨allowed, rfl, rfl, rfl⟩
  cases allowed with
  | false => exact .inl ⟨rfl, rfl, rfl⟩
  | true =>
    have placed : Stage.permitted d ≠ .ordered := nofun
    refine wp_after (succeeds_still placed trivial) fun started =>
      wp_after (succeeds_still placed trivial) fun _ => ?_
    rw [wp_bind, wp_attempt]
    apply wp_mono (callProvider_wp attempts id data)
    rintro r s g ⟨rfl, rfl⟩
    have placed := answer_placed cfg.retryPolicy d r
    cases r with
    | error x =>
      simp only [orRaise_ok, wp_bind, before]
      apply wp_mono (afterError_wp placed d.provider d.errors.length started x)
      rintro _ s' g ⟨⟨_, rfl⟩, rfl, h⟩
      cases x with
      | provider error =>
        obtain ⟨a, ha, rfl⟩ := h
        exact .inr ⟨a, ha, rfl, rfl⟩
      | _ => exact rfl
    | ok result =>
      have recorded : Succeeds (protocol profile cfg) (Stays s _) (recordSuccess cfg d.provider) :=
        succeeds_recordSuccess (stays_settling placed) (fun _ _ _ _ _ => fun h => h) _
      refine wp_after recorded fun _ =>
        wp_after (succeeds_latencySince (stays_settling placed) started) fun latencyMs =>
        wp_after (succeeds_still placed trivial) fun _ => ?_
      simp only [appendAttempt, now, perform, wp_bind, wp_effect, wp_modify, orRaise_ok, wp_pure]
      exact ⟨trivial, fun createdAt _ => ⟨_, by rw [mark, before], rfl, rfl⟩⟩

/-- How the retry loop ends. -/
def Retried (policy : RetryPolicy) (d : Draft) (s : Locals)
    (r : Except Exn (ProviderPaymentResult × ℕ)) (s' : Locals) (g' : Stage) : Prop :=
  match r with
  | .ok (result, _) => ∃ errors, s'.payment = s.payment ∧
      s'.attempts.map mark = (Visit.mk d.provider errors .returned).marks ∧
      g' = .returned { d with errors } result
  | .error (.provider error) => ∃ errors ending, ending ≠ .returned ∧ s'.payment = s.payment ∧
      s'.attempts.map mark = errorMarks d.provider errors ∧
      g' = Draft.leave { d with errors } ending error.code
  | .error _ => Left policy g'

theorem retryFrom_wp {payment : Payment} (id : payment.id = d.id) (data : PaymentInput)
    {lastError : Option ProviderError} {attempt remaining : ℕ}
    (count : attempt = d.errors.length) (bound : attempt + remaining = cfg.retryPolicy.maxAttempts)
    (more : 0 < remaining ∨ lastError = none ∧ cfg.retryPolicy.maxAttempts = 0)
    (visiting : s.attempts.map mark = errorMarks d.provider d.errors) :
    wp (protocol profile cfg)
      (retryFrom (operation cfg d.provider payment data) cfg.retryPolicy lastError attempt
        remaining) (Retried cfg.retryPolicy d s) s (.asking d) := by
  induction remaining generalizing d s lastError attempt with
  | zero =>
    obtain more | ⟨rfl, none⟩ := more
    · exact absurd more (Nat.lt_irrefl 0)
    · exact none
  | succ remaining ih =>
    have before : s.attempts.length = d.errors.length := by
      simpa [errorMarks] using congrArg List.length visiting
    simp only [retryFrom, wp_bind, wp_attempt]
    apply wp_mono (operation_wp (by omega) id data before)
    intro r s' g h
    cases r with
    | ok result =>
      obtain ⟨a, ha, rfl, rfl⟩ := h
      exact ⟨d.errors, rfl, by simp [visiting, ha, Visit.marks], rfl⟩
    | error x =>
      cases x with
      | provider error =>
        obtain ⟨refused, rfl, rfl⟩ | ⟨a, ha, rfl, rfl⟩ := h
        · have final : isRetryable error = false := by simp [isRetryable, refused, retryableErrors]
          simp only [orRaise_ok, final, true_or, if_true, wp_raise]
          exact ⟨d.errors, .refused, nofun, rfl, visiting, rfl⟩
        · have marked : (s.attempts ++ [a]).map mark =
              errorMarks d.provider (d.errors ++ [error]) := by
            rw [List.map_append, visiting, List.map_singleton, ha, errorMarks_concat]
          by_cases last : isRetryable error = false ∨ attempt + 1 = cfg.retryPolicy.maxAttempts
          · simp only [orRaise_ok, Draft.fail, ← count, if_pos last, wp_raise]
            exact ⟨d.errors ++ [error], .gaveUp, nofun, rfl, marked, rfl⟩
          · by_cases big : 1024 ≤ attempt
            · simp only [orRaise_ok, Draft.fail, ← count, if_neg last, if_pos big]
              rw [wp_bind]
              exact wp_delayFor trivial (fun _ => rfl) (fun _ _ => trivial)
                fun fits => absurd big (Nat.not_le.mpr fits)
            · simp only [orRaise_ok, Draft.fail, ← count, if_neg last, if_neg big]
              rw [wp_bind]
              refine wp_delayFor trivial (fun _ => rfl) (fun beyond => absurd beyond big)
                fun _ delay => ?_
              simp only [orRaise_ok, Service.sleep, perform, wp_bind, wp_await, wp_effect]
              refine ⟨⟨d.raised error, rfl, by simp [Draft.raised]⟩, fun r hr => ?_⟩
              cases r with
              | error x =>
                obtain rfl : x = .cancelled := hr
                trivial
              | ok =>
                have counted : attempt + 1 = (d.raised error).errors.length := by
                  simp [Draft.raised, count]
                have bound : attempt + 1 + remaining = cfg.retryPolicy.maxAttempts := by omega
                exact ih (d := d.raised error) (s := { s with attempts := s.attempts ++ [a] }) id
                  counted bound (.inl (by omega)) marked
      | _ =>
        obtain rfl : g = .abandoned d.id := h
        trivial

/-- The payment a call works on has the history of the visits that have ended. -/
def Drafted (id : Uuid) (visits : List Visit) (s : Locals) : Prop :=
  ∃ p, s.payment = some p ∧ p.id = id ∧ History visits p

theorem Drafted.extended {id : Uuid} {visits : List Visit} (h : Drafted id visits s) {v : Visit}
    {s' : Locals} (payment : s'.payment = s.payment) (marks : s'.attempts.map mark = v.marks) :
    Drafted id (visits ++ [v]) (extendAttempts s') := by
  obtain ⟨p, hp, hid, history⟩ := h
  exact ⟨{ p with attempts := p.attempts ++ s'.attempts },
    by rw [extendAttempts, payment, hp]; rfl, hid, history.extended marks⟩

/-- How a visit ends. -/
def Visited (policy : RetryPolicy) (d : Draft) (r : Except Exn ProviderPaymentResult) (s' : Locals)
    (g' : Stage) : Prop :=
  match r with
  | .ok result => ∃ errors, Drafted d.id (Draft.close { d with errors } .returned) s' ∧
      g' = .returned { d with errors } result
  | .error (.provider error) => ∃ errors ending,
      Drafted d.id (Draft.close { d with errors } ending) s' ∧
      g' = Draft.leave { d with errors } ending error.code
  | .error _ => Left policy g'

theorem attemptProvider_wp {payment : Payment} (id : payment.id = d.id) (data : PaymentInput)
    (fresh : d.errors = []) (drafted : Drafted d.id d.visits s) :
    wp (protocol profile cfg) (attemptProvider cfg payment d.provider data)
      (Visited cfg.retryPolicy d) s (.asking d) := by
  have more : 0 < cfg.retryPolicy.maxAttempts ∨
      (none : Option ProviderError) = none ∧ cfg.retryPolicy.maxAttempts = 0 := by
    obtain h | h := Nat.eq_zero_or_pos cfg.retryPolicy.maxAttempts
    · exact .inr ⟨rfl, h⟩
    · exact .inl h
  simp only [attemptProvider, runWithRetry, wp_bind, wp_modify, wp_attempt, orRaise_ok]
  apply wp_mono (retryFrom_wp (s := { s with attempts := [] }) id data (by rw [fresh]; rfl)
    (Nat.zero_add _) more (by rw [fresh]; rfl))
  intro r s' g h
  cases r with
  | ok result =>
    obtain ⟨errors, payment, marks, rfl⟩ := h
    exact ⟨errors, drafted.extended payment marks, rfl⟩
  | error x =>
    cases x with
    | provider error =>
      obtain ⟨errors, ending, unreturned, payment, marks, rfl⟩ := h
      refine ⟨errors, ending, drafted.extended payment ?_, rfl⟩
      rw [mark_failLast, marks, Visit.marks, if_neg unreturned]
    | _ => exact h

end Visit

section Finish

variable {s : Locals} {g : Stage}

theorem save_wp (p : Payment) (events : List EventEnvelope) (saves : g.saves p) :
    wp (protocol profile cfg) (save cfg p events)
      (fun r s' g' => r = .ok () ∧ s' = s ∧ g' = g.store) s g := by
  unfold save
  split
  · simp only [perform, wp_await, wp_effect]
    refine ⟨saves, fun r hr => ?_⟩
    cases r with
    | error x => exact hr.elim
    | ok => exact ⟨rfl, rfl, rfl⟩
  · simp only [perform, wp_bind, wp_await, wp_effect]
    refine ⟨saves, fun r hr => ?_⟩
    cases r with
    | error x => exact hr.elim
    | ok =>
      simp only [orRaise_ok, wp_onlyIf, wp_await, wp_effect]
      split
      · refine ⟨trivial, fun r hr => ?_⟩
        cases r with
        | error x => exact hr.elim
        | ok => exact ⟨rfl, trivial, rfl⟩
      · exact ⟨trivial, trivial, rfl⟩

/-- The effects of a coordinator that is really there. -/
def claiming (profile : Profile) (e : Effect) : Prop := e.coordinating ∧ Ledger.plain profile e

theorem claiming_neutral (g : Stage) {e : Effect} (he : claiming profile e) :
    ok profile cfg g e ∧ ∀ r, next cfg g e r = g := by
  cases e with
  | coordinator e => exact ⟨he.2, fun _ => rfl⟩
  | redis e => exact ⟨trivial, fun _ => rfl⟩
  | _ => exact he.1.elim

theorem claiming_wp {α : Type} {m : Service α} (h : Uses (claiming profile) m) :
    wp (protocol profile cfg) m (fun _ s' g' => s' = s ∧ g' = g) s g := by
  have hs := keeps_of_uses (P := protocol profile cfg) (I := Stays s g) h ?_ s g ⟨rfl, rfl⟩
  · exact wp_mono hs fun _ _ _ hr => hr
  · rintro s' g' e ⟨rfl, rfl⟩ he
    obtain ⟨hok, hn⟩ : ok profile cfg g' e ∧ ∀ r, next cfg g' e r = g' :=
      claiming_neutral g' he
    exact ⟨hok, fun r _ => ⟨rfl, hn r⟩⟩

variable (reliable : Ledger.Reliable profile cfg.coordinator)

include reliable

theorem complete_wp (key : RecordKey) (fingerprint : String) (paymentId : Uuid) :
    wp (protocol profile cfg) (cfg.coordinator.complete key fingerprint paymentId)
      (fun r s' g' => (∀ error, r ≠ .error (.provider error)) ∧ s' = s ∧ g' = g) s g := by
  have uses : Uses (claiming profile) (cfg.coordinator.complete key fingerprint paymentId) :=
    uses_and (cfg.coordinator.complete_uses _ _ _) (reliable.complete _ _ _)
  apply wp_of_uses_ends (J := fun g' => g' = g) uses (reliable.complete_ends _ _ _)
  · rintro g' e rfl he
    obtain ⟨hok, hn⟩ : ok profile cfg g' e ∧ ∀ r, next cfg g' e r = g' :=
      claiming_neutral g' he
    refine ⟨hok, fun r hr => ⟨?_, hn r⟩⟩
    cases e with
    | coordinator e =>
      cases e with
      | complete =>
        cases r with
        | ok => trivial
        | error x => exact hr
      | _ => trivial
    | redis e => trivial
    | _ => exact he.1.elim
  · rfl
  · exact fun r g' ends same => ⟨ends, rfl, same⟩

theorem finish_wp (placed : g ≠ .ordered) (data : PaymentInput) (fingerprint : String)
    (p : Payment) (last : EventType) (saves : g.saves p) :
    wp (protocol profile cfg) (finish cfg data fingerprint p last)
      (fun r _ g' => (∀ error, r ≠ .error (.provider error)) ∧ g' = g.store) s g := by
  simp only [finish, wp_bind, wp_modify, orRaise_ok]
  apply wp_mono (succeeds_paymentEvents (stays_settling placed) p last _ g ⟨rfl, rfl⟩)
  rintro _ s' g ⟨⟨events, rfl⟩, rfl, rfl⟩
  simp only [orRaise_ok, wp_bind]
  apply wp_mono (save_wp p events saves)
  rintro _ s' g' ⟨rfl, rfl, rfl⟩
  simp only [orRaise_ok, wp_bind]
  apply wp_mono (complete_wp reliable data.key fingerprint p.id)
  rintro r s' g' ⟨hr, rfl, rfl⟩
  cases r with
  | error x => exact ⟨fun error h => hr error (by cases h; rfl), rfl⟩
  | ok => exact ⟨fun error h => (by cases h), rfl⟩

end Finish

section Create

variable {s : Locals} {id : Uuid} {visits : List Visit}
  (reliable : Ledger.Reliable profile cfg.coordinator)

include reliable

/-- A candidate completes the payment, hands it on with a provider error, or ends the call. -/
theorem tryCandidate_wp (data : PaymentInput) (fingerprint : String) {payment : Payment}
    (identified : payment.id = id) (provider : Provider) (rest : List Provider)
    (drafted : Drafted id visits s) :
    wp (protocol profile cfg) (tryCandidate cfg data fingerprint payment provider)
      (fun r s' g' => match r with
        | .error (.provider error) => ∃ visits', Drafted id visits' s' ∧
            g' = if error.code ∈ failoverErrors then visit id visits' rest else .failed id visits'
        | _ => Left cfg.retryPolicy g') s (.asking ⟨id, visits, provider, rest, []⟩) := by
  simp only [tryCandidate, wp_bind]
  apply wp_mono (attemptProvider_wp (d := ⟨id, visits, provider, rest, []⟩) identified data rfl
    drafted)
  intro r s' g' h
  cases r with
  | error x =>
    cases x with
    | provider error =>
      obtain ⟨errors, ending, drafted, rfl⟩ := h
      exact ⟨_, drafted, rfl⟩
    | _ => exact h
  | ok result =>
    obtain ⟨errors, ⟨p, hp, hid, history⟩, rfl⟩ := h
    simp only [orRaise_ok, current, wp_bind, wp_get, wp_pure, hp, Option.getD_some]
    refine wp_mono (finish_wp reliable (returned_placed _ result) data fingerprint _
      .paymentSucceeded ⟨hid, history, rfl, rfl, rfl⟩) ?_
    rintro r s'' g'' ⟨hr, rfl⟩
    cases r with
    | ok => trivial
    | error x =>
      cases x with
      | provider error => exact absurd rfl (hr error)
      | _ => trivial

theorem tryCandidates_wp (data : PaymentInput) (fingerprint : String) {payment : Payment}
    (identified : payment.id = id) (candidates : List Provider) (drafted : Drafted id visits s) :
    wp (protocol profile cfg) (tryCandidates cfg data fingerprint payment candidates)
      (fun r s' g' => match r with
        | .ok none => ∃ visits', Drafted id visits' s' ∧ g' = .failed id visits'
        | _ => Left cfg.retryPolicy g') s (visit id visits candidates) := by
  induction candidates generalizing s visits with
  | nil => exact ⟨visits, drafted, rfl⟩
  | cons provider rest ih =>
    simp only [tryCandidates, wp_bind, wp_attempt]
    apply wp_mono (tryCandidate_wp reliable data fingerprint identified provider rest drafted)
    intro r s' g' h
    cases r with
    | ok p => exact h
    | error x =>
      cases x with
      | provider error =>
        obtain ⟨visits', drafted, rfl⟩ := h
        simp only [orRaise_ok, wp_bind, wp_modify, wp_ite, wp_pure]
        split
        · exact ⟨visits', drafted, rfl⟩
        · rename_i more
          rw [if_pos (not_not.mp more)]
          exact ih drafted
      | _ => exact h

omit reliable in
theorem healthyProviders_wp (providers : List Provider) {g : Stage} (placed : g ≠ .ordered) :
    wp (protocol profile cfg) (healthyProviders providers) (fun r s' g' => s' = s ∧ g' = g ∧
      ∀ healthy, r = .ok healthy → healthy.Sublist providers) s g := by
  induction providers with
  | nil => exact ⟨rfl, rfl, fun healthy h => Except.ok.inj h ▸ .refl _⟩
  | cons provider rest ih =>
    simp only [healthyProviders, perform, wp_bind, wp_await, wp_effect]
    refine ⟨trivial, fun r _ => ?_⟩
    cases r with
    | error x => exact ⟨rfl, rfl, nofun⟩
    | ok healthy =>
      simp only [orRaise_ok, wp_bind]
      apply wp_mono ih
      rintro r s' g' ⟨rfl, rfl, sublist⟩
      cases r with
      | error x => exact ⟨rfl, rfl, nofun⟩
      | ok others =>
        refine ⟨rfl, rfl, fun found h => ?_⟩
        obtain rfl := Except.ok.inj h
        have rest := sublist others rfl
        cases healthy with
        | true => exact rest.cons_cons provider
        | false => exact rest.cons provider

omit reliable in
theorem newPayment_wp (data : PaymentInput) (fingerprint : String) :
    wp (protocol profile cfg) (newPayment data fingerprint) (fun r s' g' => ∃ p,
      r = .ok p ∧ p.attempts = [] ∧ s' = s ∧ g' = .routing p.id) s .ordered := by
  simp only [newPayment, uuid4, now, perform, wp_bind, wp_effect]
  exact ⟨trivial, fun id _ => ⟨trivial, fun _ _ => ⟨trivial, fun _ _ => ⟨_, rfl, rfl, rfl, rfl⟩⟩⟩⟩

theorem orchestrate_wp (data : PaymentInput) (fingerprint : String) :
    wp (protocol profile cfg) (orchestrate cfg data fingerprint)
      (fun _ _ g' => Left cfg.retryPolicy g') s .ordered := by
  simp only [orchestrate, perform, wp_bind]
  apply wp_mono (newPayment_wp data fingerprint)
  rintro _ s g ⟨p, rfl, new, rfl, rfl⟩
  simp only [orRaise_ok, wp_bind, wp_modify]
  apply wp_mono (healthyProviders_wp cfg.providers (routing_placed p.id))
  rintro r s' g ⟨rfl, rfl, sublist⟩
  cases r with
  | error x => trivial
  | ok healthy =>
    simp only [orRaise_ok, wp_bind, wp_await, wp_effect]
    refine ⟨⟨⟨p.id, rfl⟩, sublist healthy rfl⟩, fun r _ => ?_⟩
    cases r with
    | error x => trivial
    | ok provider =>
      have drafted : Drafted p.id [] { s with payment := some p } :=
        ⟨p, rfl, rfl, by simp [History, new]⟩
      simp only [orRaise_ok, wp_bind]
      refine wp_mono (tryCandidates_wp reliable data fingerprint rfl
        (provider :: healthy.filter fun p => p ≠ provider) drafted) ?_
      intro r s' g h
      cases r with
      | error x => exact h
      | ok completed =>
        cases completed with
        | some p => exact h
        | none =>
          obtain ⟨visits, ⟨q, hq, hid, history⟩, rfl⟩ := h
          simp only [orRaise_ok, current, wp_bind, wp_get, wp_pure, hq, Option.getD_some]
          refine wp_mono (finish_wp reliable (failed_placed p.id visits) data fingerprint _
            .paymentFailed ⟨hid, history, rfl⟩) ?_
          rintro r s'' g ⟨-, rfl⟩
          cases r with
          | error x => trivial
          | ok =>
            simp only [orRaise_ok, wp_bind, wp_get]
            split <;> trivial

theorem createClaimed_wp (data : PaymentInput) (fingerprint : String) :
    wp (protocol profile cfg) (createClaimed cfg data fingerprint)
      (fun _ _ g' => Left cfg.retryPolicy g') s .ordered := by
  simp only [createClaimed, perform, wp_bind, wp_await, wp_effect]
  refine ⟨trivial, fun r _ => ?_⟩
  cases r with
  | error x => trivial
  | ok existing =>
    cases existing with
    | none => exact orchestrate_wp reliable data fingerprint
    | some existing =>
      simp only [orRaise_ok, wp_ite, wp_raise]
      split
      · trivial
      · rw [wp_bind]
        apply wp_mono (complete_wp reliable (g := .ordered) data.key fingerprint existing.id)
        rintro r s' g ⟨-, -, rfl⟩
        cases r <;> trivial

theorem create_wp (data : PaymentInput) :
    wp (protocol profile cfg) (create cfg data)
      (fun _ _ g' => Left cfg.retryPolicy g') s .ordered := by
  simp only [create, wp_bind]
  apply wp_mono (claiming_wp (g := .ordered) (uses_and
    (cfg.coordinator.acquire_uses data.key (requestFingerprint cfg.sha256 data))
    (reliable.acquire _ _)))
  rintro r s' g ⟨rfl, rfl⟩
  cases r with
  | error x => trivial
  | ok decision =>
    obtain ⟨status, paymentId⟩ := decision
    cases status with
    | conflict => trivial
    | completed =>
      simp only [orRaise_ok, replay, storedResult, wp_bind]
      cases paymentId with
      | none => trivial
      | some paymentId =>
        simp only [Service.get, perform, wp_await, wp_effect]
        refine ⟨trivial, fun r _ => ?_⟩
        obtain x | (_ | p) := r <;> trivial
    | claimed =>
      simp only [orRaise_ok, wp_bind, wp_modify, wp_attempt]
      apply wp_mono (createClaimed_wp reliable data _)
      intro r s' g left
      cases r with
      | ok p => exact left
      | error x =>
        simp only [orRaise_ok, release, wp_bind, wp_get, wp_onlyIf, wp_attempt]
        split
        · apply wp_mono (claiming_wp (g := g) (uses_and
            (cfg.coordinator.abort_uses data.key (requestFingerprint cfg.sha256 data))
            (reliable.abort _ _)))
          rintro r s' g ⟨rfl, rfl⟩
          split <;> exact left
        · exact left

end Create

section Refund

variable {s : Locals}

theorem refundLocked_wp (paymentId : Uuid) (amount : Option ℤ) :
    wp (protocol profile cfg) (refundLocked cfg paymentId amount)
      (fun _ _ g' => Left cfg.retryPolicy g') s .outside := by
  simp only [refundLocked, Service.get, perform, wp_bind, wp_await, wp_effect]
  refine ⟨trivial, fun r _ => ?_⟩
  obtain x | (_ | p) := r
  · trivial
  · trivial
  simp only [orRaise_ok, wp_ite, wp_raise]
  split
  · trivial
  split
  · trivial
  split
  · trivial
  simp only [wp_bind, wp_effect]
  refine ⟨trivial, fun _ _ => ?_⟩
  simp only [orRaise_ok, wp_bind, wp_await, wp_effect]
  refine ⟨trivial, fun r _ => ?_⟩
  cases r with
  | error x => trivial
  | ok result =>
    simp only [orRaise_ok, uuid4, now, perform, paymentEvent, newEvent, wp_bind, wp_effect, wp_pure]
    refine ⟨trivial, fun refundId _ => ⟨trivial, fun createdAt _ => ⟨rfl, fun q _ =>
      ⟨trivial, fun eventId _ => ⟨trivial, fun occurredAt _ => ?_⟩⟩⟩⟩⟩
    refine wp_mono (save_wp (g := .applying q) _ _ ⟨rfl, rfl⟩) ?_
    rintro r s' g ⟨rfl, rfl, rfl⟩
    trivial

theorem refund_wp (paymentId : Uuid) (amount : Option ℤ) :
    wp (protocol profile cfg) (refund cfg paymentId amount)
      (fun _ _ g' => Left cfg.retryPolicy g') s .outside := by
  simp only [refund, perform, wp_bind, wp_await, wp_effect]
  refine ⟨trivial, fun r _ => ?_⟩
  cases r with
  | error x => trivial
  | ok =>
    simp only [orRaise_ok, wp_ensure]
    apply wp_mono (refundLocked_wp paymentId amount)
    exact fun r s' g left => ⟨trivial, fun _ _ => left⟩

end Refund

def first : Call → Stage
  | .create _ => .ordered
  | _ => .outside

def discipline (profile : Profile) (cfg : Config) :
    Discipline Call Effect Effect.Reply (Except Exn Result) Stage :=
  ⟨fun _ => protocol profile cfg, first, fun _ _ g => Left cfg.retryPolicy g⟩

theorem run_follows (reliable : Ledger.Reliable profile cfg.coordinator) (c : Call) :
    ((c.run cfg).start {}).Follows (protocol profile cfg) (fun _ g => Left cfg.retryPolicy g)
      (first c) := by
  apply start_follows
  cases c with
  | create data =>
    simp only [Call.run, wp_bind]
    apply wp_mono (create_wp reliable data)
    intro r s g left
    cases r <;> exact left
  | refund paymentId amount =>
    simp only [Call.run, wp_bind]
    apply wp_mono (refund_wp paymentId amount)
    intro r s g left
    cases r <;> exact left
  | recover provider =>
    have placed : Stage.outside ≠ .ordered := nofun
    have recorded : Succeeds (protocol profile cfg) (Stays {} .outside)
        (Service.recordSuccess cfg provider) :=
      succeeds_recordSuccess (stays_settling placed) (fun _ _ _ _ _ h => h) _
    simp only [Call.run]
    exact wp_after recorded fun _ => trivial

end PySwitch.Visits
