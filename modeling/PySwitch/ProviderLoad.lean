import Mathlib.Algebra.BigOperators.Group.Finset.Basic
import Mathlib.Algebra.Group.Action.Defs
import Mathlib.Algebra.Order.BigOperators.Group.Finset
import PySwitch.RetryCount
import PySwitch.SoloCreate

namespace PySwitch.Load

open Async Program Service

/-- The providers a task has sent its payment to, one for each call. -/
def called : List ((e : Effect) × e.Reply) → List Provider
  | [] => []
  | ⟨.provider (.startPayment p _ _ _ _), _⟩ :: trace => p :: called trace
  | _ :: trace => called trace

/-- The effects other than the beginning of a provider call. -/
def Quiet : Effect → Prop
  | .provider (.startPayment _ _ _ _ _) => False
  | _ => True

theorem called_append (trace trace' : List ((e : Effect) × e.Reply)) :
    called (trace ++ trace') = called trace ++ called trace' := by
  induction trace with
  | nil => rfl
  | cons x trace ih =>
    obtain ⟨e, r⟩ := x
    cases e with
    | provider e =>
      cases e with
      | startPayment p => exact congrArg (p :: ·) ih
      | _ => exact ih
    | _ => exact ih

/-- A provider of the service is called, and there are calls left for it. -/
def ok (cfg : Config) (g : List Provider) : Effect → Prop
  | .provider (.startPayment p _ _ _ _) =>
    p ∈ cfg.providers ∧ g.count p < cfg.retryPolicy.maxAttempts
  | _ => True

def may : (e : Effect) → e.Reply → Prop
  | .provider (.choose healthy), .ok provider => provider ∈ healthy
  | _, _ => True

/-- The phase of a task is the list of the providers it has called. -/
def protocol (cfg : Config) : Protocol Effect Effect.Reply (List Provider) :=
  ⟨ok cfg, fun _ => may, fun g e r => g ++ called [⟨e, r⟩]⟩

section Quiet

variable {cfg : Config} {J : List Provider → Prop}

theorem still_neutral (_ : Locals) (g : List Provider) (e : Effect) (h : J g) (quiet : Quiet e) :
    (protocol cfg).ok g e ∧
      ∀ r, (protocol cfg).may g e r → J ((protocol cfg).next g e r) := by
  have same (r : e.Reply) : (protocol cfg).next g e r = g := by
    cases e with
    | provider e =>
      cases e with
      | startPayment => exact quiet.elim
      | _ => exact List.append_nil g
    | _ => exact List.append_nil g
  refine ⟨?_, fun r _ => (same r).symm ▸ h⟩
  cases e with
  | provider e =>
    cases e with
    | startPayment => exact quiet.elim
    | _ => trivial
  | _ => trivial

theorem still {α : Type} {A : Effect → Prop} {m : Service α} (h : Uses A m)
    (quiet : ∀ e, A e → Quiet e) : Keeps (protocol cfg) (fun _ g => J g) m :=
  keeps_of_uses h fun s g e hJ he => still_neutral s g e hJ (quiet e he)

theorem still_perform (e : Effect) (h : Quiet e) :
    Keeps (protocol cfg) (fun _ g => J g) (perform e) :=
  still (A := Quiet) (uses_effect h) fun _ => id

theorem quiet_recording (e : Effect) (h : e.recording) : Quiet e := by
  cases e with
  | provider e => exact h.elim
  | _ => trivial

theorem quiet_hosting (e : Effect) (h : e.hosting) : Quiet e :=
  quiet_recording e (Effect.recording_of_hosting e h)

theorem still_unattempting (s : Locals) (g : List Provider) (e : Effect) (h : J g)
    (he : ¬e.attempting) : (protocol cfg).ok g e ∧
      ∀ r, (protocol cfg).may g e r → J ((protocol cfg).next g e r) := by
  apply still_neutral s g e h
  cases e with
  | provider e =>
    cases e with
    | startPayment => exact absurd trivial he
    | _ => trivial
  | _ => trivial

theorem still_allowProvider (p : Provider) :
    Keeps (protocol cfg) (fun _ g => J g) (allowProvider cfg p) :=
  keeps_bind (still_perform _ trivial) fun _ =>
    keeps_bind (keeps_onlyIf (still (uses_recordCircuitTransition _ _ _ _) quiet_recording))
      fun _ => keeps_pure _

theorem still_recordSuccess (p : Provider) :
    Keeps (protocol cfg) (fun _ g => J g) (recordSuccess cfg p) :=
  keeps_bind (still_perform _ trivial) fun _ =>
    keeps_onlyIf (still (uses_recordCircuitTransition _ _ _ _) quiet_recording)

theorem still_recordFailure (p : Provider) :
    Keeps (protocol cfg) (fun _ g => J g) (recordFailure cfg p) :=
  keeps_bind (still_perform _ trivial) fun _ =>
    keeps_onlyIf (still (uses_recordCircuitTransition _ _ _ _) quiet_recording)

theorem still_appendAttempt (p : Provider) (attemptNumber : ℕ) (result : AttemptResult)
    (latencyMs : ℚ) (errorCode : Option String) : Keeps (protocol cfg) (fun _ g => J g)
      (appendAttempt p attemptNumber result latencyMs errorCode) :=
  keeps_bind (still uses_now quiet_hosting) fun _ => keeps_modify fun _ _ h => h

theorem still_afterError (p : Provider) (attemptNumber : ℕ) (started : Seconds) (x : Exn) :
    Keeps (protocol cfg) (fun _ g => J g) (afterError cfg p attemptNumber started x) := by
  have latency : Keeps (protocol cfg) (fun _ g => J g) (latencySince started) :=
    still (uses_latencySince started) quiet_hosting
  cases x with
  | provider error =>
    refine keeps_bind latency fun latencyMs => keeps_bind (still_perform _ trivial) fun _ => ?_
    refine keeps_bind (still_recordFailure p) fun _ => ?_
    refine keeps_bind (keeps_onlyIf (still_perform _ trivial)) fun _ => ?_
    exact still_appendAttempt p _ _ _ _
  | cancelled => exact keeps_pure _
  | _ => exact keeps_bind latency fun _ => still_perform _ trivial

theorem still_finish (data : PaymentInput) (fingerprint : String) (payment : Payment)
    (last : EventType) : Keeps (protocol cfg) (fun _ g => J g)
      (finish cfg data fingerprint payment last) :=
  keeps_finish (fun s g e h he => still_unattempting s g e h he) (fun _ _ _ h => h) data fingerprint
    payment last

/-- Before a program goes on, what leaves the calls alone can only raise. -/
theorem wp_behind {α β : Type} {m : Service α} {f : α → Service β} {s : Locals}
    {g : List Provider} {Q : Except Exn β → Locals → List Provider → Prop}
    (still : Keeps (protocol cfg) (fun _ g => J g) m) (h : J g)
    (raised : ∀ x s' g', J g' → Q (.error x) s' g')
    (goes : ∀ a s' g', J g' → wp (protocol cfg) (f a) Q s' g') :
    wp (protocol cfg) (m >>= f) Q s g := by
  rw [wp_bind]
  apply wp_mono (still s g h)
  intro r s' g' h
  cases r with
  | error x => exact raised x s' g' h
  | ok a => exact goes a s' g' h

end Quiet

section Visit

variable {cfg : Config} {rest : List Provider} {p : Provider} {n : ℕ} {s : Locals}
  {g : List Provider}

/-- None of the candidates that are left has been called. -/
def Unvisited (rest g : List Provider) : Prop := ∀ q ∈ rest, q ∉ g

/-- So many calls are left for the candidate that is visited. -/
structure Room (cfg : Config) (rest : List Provider) (p : Provider) (n : ℕ) (g : List Provider) :
    Prop where
  room : g.count p + n ≤ cfg.retryPolicy.maxAttempts
  unvisited : Unvisited rest g

theorem Room.less (h : Room cfg rest p (n + 1) g) : Room cfg rest p n g :=
  ⟨Nat.le_of_succ_le h.room, h.unvisited⟩

theorem Room.call (h : Room cfg rest p (n + 1) g) (apart : p ∉ rest) :
    Room cfg rest p n (g ++ [p]) := by
  constructor
  · rw [List.count_append, List.count_singleton_self]
    have room := h.room
    omega
  · intro q left mem
    obtain mem | mem := List.mem_append.mp mem
    · exact h.unvisited q left mem
    · exact apart (List.mem_singleton.mp mem ▸ left)

theorem createPayment_wp (known : p ∈ cfg.providers) (apart : p ∉ rest) (payment : Payment)
    (data : PaymentInput) (h : Room cfg rest p (n + 1) g) :
    wp (protocol cfg) (createPayment p payment data) (fun _ _ g' => Room cfg rest p n g') s g := by
  simp only [createPayment, perform, wp_bind, wp_effect, orRaise_ok, wp_await]
  have room := h.room
  refine ⟨⟨known, by omega⟩, fun _ _ => ?_⟩
  exact still_neutral s _ _ (h.call apart) trivial

theorem callProvider_wp (known : p ∈ cfg.providers) (apart : p ∉ rest) (payment : Payment)
    (data : PaymentInput) (h : Room cfg rest p (n + 1) g) :
    wp (protocol cfg) (callProvider p payment data) (fun _ _ g' => Room cfg rest p n g') s g := by
  unfold callProvider
  refine wp_behind (J := Room cfg rest p (n + 1)) (still_perform _ trivial) h
    (fun _ _ _ h => h.less) fun semaphore s' g' h => ?_
  cases semaphore with
  | none => exact createPayment_wp known apart payment data h
  | some semaphore =>
    refine wp_behind (J := Room cfg rest p (n + 1)) (keeps_await (still_perform _ trivial)) h
      (fun _ _ _ h => h.less) fun _ s'' g'' h => ?_
    rw [wp_ensure]
    apply wp_mono (createPayment_wp known apart payment data h)
    intro r s₃ g₃ h
    apply wp_mono (still_perform (J := Room cfg rest p n) (.semaphore (.release p semaphore))
      trivial s₃ g₃ h)
    intro r s₄ g₄ h
    cases r with
    | _ => exact h

/-- A round of the retry loop uses up one of the calls at most. -/
theorem operation_wp (known : p ∈ cfg.providers) (apart : p ∉ rest) (payment : Payment)
    (data : PaymentInput) (h : Room cfg rest p (n + 1) g) :
    wp (protocol cfg) (operation cfg p payment data) (fun _ _ g' => Room cfg rest p n g') s g := by
  unfold operation
  rw [wp_bind, wp_get, orRaise_ok]
  refine wp_behind (J := Room cfg rest p (n + 1)) (still_allowProvider p) h
    (fun _ _ _ h => h.less) fun allowed s' g' h => ?_
  rw [wp_ite]
  split
  · exact h.less
  · refine wp_behind (J := Room cfg rest p (n + 1)) (still uses_now quiet_hosting) h
      (fun _ _ _ h => h.less) fun started s'' g'' h => ?_
    refine wp_behind (J := Room cfg rest p (n + 1)) (still_perform _ trivial) h
      (fun _ _ _ h => h.less) fun _ s₃ g₃ h => ?_
    rw [wp_bind, wp_attempt]
    apply wp_mono (callProvider_wp known apart payment data h)
    intro answer s₄ g₄ h
    cases answer with
    | error x =>
      exact keeps_bind (still_afterError p _ started x) (fun _ => keeps_raise x) s₄ g₄ h
    | ok result =>
      have settles : Keeps (protocol cfg) (fun _ g => Room cfg rest p n g) (do
          recordSuccess cfg p
          let latencyMs ← latencySince started
          perform (.stats (.finishRequest p true latencyMs none))
          appendAttempt p (s.attempts.length + 1) .succeeded latencyMs none
          return result : Service ProviderPaymentResult) := by
        refine keeps_bind (still_recordSuccess p) fun _ => ?_
        refine keeps_bind (still (uses_latencySince started) quiet_hosting)
          fun latencyMs => ?_
        refine keeps_bind (still_perform _ trivial) fun _ => ?_
        exact keeps_bind (still_appendAttempt p _ _ _ _) fun _ => keeps_pure _
      exact settles s₄ g₄ h

theorem retryFrom_wp (known : p ∈ cfg.providers) (apart : p ∉ rest) (payment : Payment)
    (data : PaymentInput) {lastError : Option ProviderError} {attempt : ℕ}
    (h : Room cfg rest p n g) :
    wp (protocol cfg)
      (retryFrom (operation cfg p payment data) cfg.retryPolicy lastError attempt n)
      (fun _ _ g' => Unvisited rest g') s g := by
  induction n generalizing lastError attempt s g with
  | zero => exact h.unvisited
  | succ n ih =>
    rw [retryFrom, wp_bind, wp_attempt]
    apply wp_mono (operation_wp known apart payment data h)
    intro r s' g' h
    cases r with
    | ok result => exact h.unvisited
    | error x =>
      cases x with
      | provider error =>
        rw [orRaise_ok, wp_ite]
        split
        · exact h.unvisited
        · have random : Keeps (protocol cfg) (fun _ g => Room cfg rest p n g)
              (perform (.host .random)) := still_perform (.host .random) trivial
          have delayed := keeps_delayFor cfg.retryPolicy random attempt
          refine wp_behind (J := Room cfg rest p n) delayed h (fun _ _ _ h => h.unvisited)
            fun delay s'' g'' h => ?_
          exact wp_behind (J := Room cfg rest p n) (keeps_await (still_perform _ trivial)) h
            (fun _ _ _ h => h.unvisited) fun _ s₃ g₃ h => ih h
      | _ => exact h.unvisited

theorem attemptProvider_wp (known : p ∈ cfg.providers) (apart : p ∉ rest) (payment : Payment)
    (data : PaymentInput) (h : Unvisited (p :: rest) g) :
    wp (protocol cfg) (attemptProvider cfg payment p data)
      (fun _ _ g' => Unvisited rest g') s g := by
  have room : Room cfg rest p cfg.retryPolicy.maxAttempts g := by
    constructor
    · rw [List.count_eq_zero_of_not_mem (h p List.mem_cons_self), Nat.zero_add]
    · exact fun q left => h q (List.mem_cons_of_mem _ left)
  simp only [attemptProvider, runWithRetry, wp_bind, wp_modify, wp_attempt, orRaise_ok]
  apply wp_mono (retryFrom_wp known apart payment data room)
  intro r s' g' h
  cases r with
  | ok result => exact h
  | error x =>
    cases x with
    | _ => exact h

end Visit

section Create

variable {cfg : Config} {s : Locals} {g : List Provider}

theorem tryCandidate_wp {p : Provider} {rest : List Provider} (known : p ∈ cfg.providers)
    (apart : p ∉ rest) (data : PaymentInput) (fingerprint : String) (payment : Payment)
    (h : Unvisited (p :: rest) g) :
    wp (protocol cfg) (tryCandidate cfg data fingerprint payment p)
      (fun _ _ g' => Unvisited rest g') s g := by
  simp only [tryCandidate, wp_bind]
  apply wp_mono (attemptProvider_wp known apart payment data h)
  intro r s' g' h
  cases r with
  | error x => exact h
  | ok result =>
    simp only [orRaise_ok, current, wp_bind, wp_get, wp_pure]
    apply wp_mono (still_finish (J := Unvisited rest) data fingerprint _ _ s' g' h)
    intro r s'' g'' h
    cases r with
    | _ => exact h

theorem tryCandidates_wp (data : PaymentInput) (fingerprint : String) (payment : Payment)
    {candidates : List Provider} (known : ∀ p ∈ candidates, p ∈ cfg.providers)
    (distinct : candidates.Nodup) (h : Unvisited candidates g) :
    wp (protocol cfg) (tryCandidates cfg data fingerprint payment candidates)
      (fun _ _ _ => True) s g := by
  induction candidates generalizing s g with
  | nil => trivial
  | cons p rest ih =>
    obtain ⟨apart, distinct⟩ := List.nodup_cons.mp distinct
    have mem : p ∈ cfg.providers := known p List.mem_cons_self
    simp only [tryCandidates, wp_bind, wp_attempt, orRaise_ok]
    apply wp_mono (tryCandidate_wp mem apart data fingerprint payment h)
    intro r s' g' h
    cases r with
    | ok payment => trivial
    | error x =>
      cases x with
      | provider error =>
        simp only [wp_bind, wp_modify, orRaise_ok, wp_ite, wp_pure]
        split
        · trivial
        · exact ih (fun q left => known q (List.mem_cons_of_mem _ left)) distinct h
      | _ => trivial

theorem healthyProviders_wp (providers : List Provider) :
    wp (protocol cfg) (healthyProviders providers) (fun r _ g' =>
      g' = g ∧ ∀ healthy, r = .ok healthy → healthy.Sublist providers) s g := by
  induction providers generalizing s g with
  | nil => exact ⟨rfl, fun healthy h => Except.ok.inj h ▸ .refl _⟩
  | cons provider providers ih =>
    simp only [healthyProviders, wp_bind]
    apply wp_mono (keeps_await (still_perform (J := fun g' => g' = g)
      (.provider (.healthCheck provider)) trivial) s g rfl)
    rintro r s' g' rfl
    cases r with
    | error x => exact ⟨rfl, fun healthy h => by cases h⟩
    | ok answer =>
      rw [orRaise_ok, wp_bind]
      apply wp_mono ih
      rintro r s'' g'' ⟨same, sublist⟩
      cases r with
      | error x => exact ⟨same, fun healthy h => by cases h⟩
      | ok others =>
        refine ⟨same, fun found h => ?_⟩
        obtain rfl := Except.ok.inj h
        have shorter := sublist others rfl
        cases answer with
        | true => exact shorter.cons_cons provider
        | false => exact shorter.cons provider

/-- The candidates, the chosen one first, are providers of the service and each is there once. -/
theorem ordered_candidates {healthy : List Provider} {provider : Provider}
    (distinct : cfg.providers.Nodup) (listed : healthy.Sublist cfg.providers)
    (mem : provider ∈ healthy) :
    (∀ p ∈ provider :: healthy.filter (fun p => p ≠ provider), p ∈ cfg.providers) ∧
      (provider :: healthy.filter fun p => p ≠ provider).Nodup := by
  constructor
  · intro p there
    obtain rfl | there := List.mem_cons.mp there
    · exact listed.subset mem
    · exact listed.subset (List.mem_of_mem_filter there)
  · exact List.nodup_cons.mpr ⟨by simp, (distinct.sublist listed).filter _⟩

theorem orchestrate_wp (distinct : cfg.providers.Nodup) (data : PaymentInput)
    (fingerprint : String) :
    wp (protocol cfg) (orchestrate cfg data fingerprint) (fun _ _ _ => True) s [] := by
  unfold orchestrate
  refine wp_behind (J := fun g => g = []) (still (uses_newPayment data fingerprint) quiet_hosting)
    rfl (fun _ _ _ _ => trivial) fun payment s' g' called => ?_
  subst called
  simp only [orRaise_ok, wp_bind, wp_modify]
  apply wp_mono (healthyProviders_wp cfg.providers)
  rintro r s'' g'' ⟨rfl, sublist⟩
  cases r with
  | error x => trivial
  | ok healthy =>
    have listed := sublist healthy rfl
    simp only [orRaise_ok, wp_bind, perform, wp_await, wp_effect]
    refine ⟨trivial, fun r chosen => ?_⟩
    cases r with
    | error x => trivial
    | ok provider =>
      obtain ⟨known, apart⟩ := ordered_candidates distinct listed chosen
      simp only [orRaise_ok, wp_bind]
      apply wp_mono (tryCandidates_wp data fingerprint payment known apart
        fun _ _ => List.not_mem_nil)
      rintro r s₃ g₃ -
      cases r with
      | error x => trivial
      | ok completed =>
        cases completed with
        | some payment => trivial
        | none =>
          simp only [orRaise_ok, current, wp_bind, wp_get, wp_pure]
          apply wp_mono (still_finish (J := fun _ => True) data fingerprint _ _ s₃ g₃ trivial)
          intro r s₄ g₄ _
          cases r with
          | error x => trivial
          | ok _ =>
            simp only [orRaise_ok, wp_bind, wp_get]
            split
            · trivial
            · trivial

theorem createClaimed_wp (distinct : cfg.providers.Nodup) (data : PaymentInput)
    (fingerprint : String) :
    wp (protocol cfg) (createClaimed cfg data fingerprint) (fun _ _ _ => True) s [] := by
  unfold createClaimed
  refine wp_behind (J := fun g => g = []) (keeps_await (still_perform _ trivial)) rfl
    (fun _ _ _ _ => trivial) fun existing s' g' called => ?_
  subst called
  cases existing with
  | none => exact orchestrate_wp distinct data fingerprint
  | some existing =>
    have kept : Keeps (protocol cfg) (fun _ _ => True) (do
        cfg.coordinator.complete data.key fingerprint existing.id
        modify fun s => { s with claimed := false }
        return existing : Service Payment) :=
      keeps_bind (keeps_coordinator (fun s g e h he _ => still_unattempting s g e h he)
        (cfg.coordinator.complete_uses _ _ _)) fun _ =>
        keeps_bind (keeps_modify fun _ _ h => h) fun _ => keeps_pure _
    exact keeps_ite (keeps_raise _) kept s' _ trivial

theorem create_wp (distinct : cfg.providers.Nodup) (data : PaymentInput) :
    wp (protocol cfg) (create cfg data) (fun _ _ _ => True) s [] := by
  unfold create
  refine wp_behind (J := fun g => g = [])
    (keeps_coordinator (fun s g e h he _ => still_unattempting s g e h he)
      (cfg.coordinator.acquire_uses _ _)) rfl
    (fun _ _ _ _ => trivial) fun decision s' g' called => ?_
  subst called
  split
  · trivial
  · exact keeps_replay (I := fun _ _ => True)
      (fun s g e h he _ => still_unattempting (J := fun _ => True) s g e h he)
      decision s' [] trivial
  · simp only [wp_bind, wp_modify, orRaise_ok, wp_attempt]
    apply wp_mono (createClaimed_wp distinct data _)
    intro r s'' g'' _
    cases r with
    | ok payment => trivial
    | error x =>
      exact keeps_bind (keeps_release (I := fun _ _ => True)
        (fun s g e h he _ => still_unattempting (J := fun _ => True) s g e h he) data _)
        (fun _ => keeps_raise _) s'' g'' trivial

end Create

def discipline (cfg : Config) :
    Discipline Call Effect Effect.Reply (Except Exn Result) (List Provider) :=
  ⟨fun _ => protocol cfg, fun _ => [], fun _ _ _ => True⟩

theorem run_follows {cfg : Config} (distinct : cfg.providers.Nodup) (c : Call) :
    ((c.run cfg).start {}).Follows (protocol cfg) ((discipline cfg).post c) [] := by
  apply start_follows
  cases c with
  | create data =>
    simp only [Call.run, wp_bind]
    apply wp_mono (create_wp distinct data)
    intro r s g _
    cases r with
    | _ => trivial
  | refund paymentId amount =>
    exact keeps_bind (keeps_refund (I := fun _ _ => True)
      (fun s g e h he => still_unattempting (J := fun _ => True) s g e h he) paymentId amount)
      (fun _ => keeps_pure _) {} _ trivial
  | recover provider =>
    exact keeps_bind (still_recordSuccess (J := fun _ => True) provider)
      (fun _ => keeps_pure _) {} _ trivial

theorem maintains {cfg : Config} {profile : Profile} (distinct : cfg.providers.Nodup) :
    Maintains (system cfg profile) (fun _ _ => True) (discipline cfg) (fun _ _ _ => True) where
  follows := run_follows distinct
  call := fun _ _ _ _ => trivial
  reply := by
    intro s l t c g e r w _ _ _ _ h
    refine ⟨?_, fun _ _ _ => trivial⟩
    cases e with
    | provider e =>
      cases e with
      | choose healthy =>
        have chosen := Solo.choose_reply h
        cases r with
        | ok provider => exact chosen
        | error x => trivial
      | _ => trivial
    | _ => trivial
  wait := fun _ _ _ _ _ => trivial
  outside := fun _ _ _ => trivial

/-- No provider of the service is called more often than it may be. -/
def Bounded (cfg : Config) (g : List Provider) : Prop :=
  ∀ p ∈ g, p ∈ cfg.providers ∧ g.count p ≤ cfg.retryPolicy.maxAttempts

theorem bounded_next {cfg : Config} {g : List Provider} {e : Effect} (h : Bounded cfg g)
    (hok : ok cfg g e) (r : e.Reply) : Bounded cfg (g ++ called [⟨e, r⟩]) := by
  have same (none : called [⟨e, r⟩] = []) : Bounded cfg (g ++ called [⟨e, r⟩]) := by
    rw [none, List.append_nil]
    exact h
  cases e with
  | provider e =>
    cases e with
    | startPayment p =>
      obtain ⟨known, room⟩ := hok
      intro q mem
      have count : (g ++ [p]).count q = g.count q + [p].count q := List.count_append
      by_cases here : q = p
      · subst here
        refine ⟨known, count.trans_le ?_⟩
        rw [List.count_singleton_self]
        omega
      · have there : q ∈ g := by simpa [called, here] using mem
        have none : [p].count q = 0 := List.count_eq_zero_of_not_mem (by simpa using here)
        refine ⟨(h q there).1, count.trans_le ?_⟩
        rw [none]
        exact (h q there).2
    | _ => exact same rfl
  | _ => exact same rfl

theorem Bounded.length {cfg : Config} {g : List Provider} (h : Bounded cfg g) :
    g.length ≤ cfg.providers.length * cfg.retryPolicy.maxAttempts := by
  rw [← List.sum_toFinset_count_eq_length g]
  calc (g.toFinset.sum fun p => g.count p)
      ≤ g.toFinset.card * cfg.retryPolicy.maxAttempts := by
        rw [← smul_eq_mul]
        apply Finset.sum_le_card_nsmul
        exact fun p mem => (h p (List.mem_toFinset.mp mem)).2
    _ ≤ cfg.providers.length * cfg.retryPolicy.maxAttempts := by
        apply Nat.mul_le_mul_right
        apply (Finset.card_le_card _).trans cfg.providers.toFinset_card_le
        exact fun p mem => List.mem_toFinset.mpr (h p (List.mem_toFinset.mp mem)).1

/-- However a call goes, whatever it is interrupted by and whoever else is called, it calls no
provider more often than the retry policy allows, and none that the service does not have. -/
theorem load_bounded {cfg : Config} {profile : Profile} (distinct : cfg.providers.Nodup)
    (circuit : CircuitBreaker) (concurrency : List (Provider × ℕ)) {s : ServiceState}
    (h : Reaches (system cfg profile) (fun _ _ => True) (.empty (.initial circuit concurrency)) s)
    {t : Tid} {T : ServiceTask} (task : s.tasks t = some T) :
    (∀ p ∈ called T.trace, p ∈ cfg.providers ∧
      (called T.trace).count p ≤ cfg.retryPolicy.maxAttempts) ∧
    (called T.trace).length ≤ cfg.providers.length * cfg.retryPolicy.maxAttempts := by
  have M : Maintains (system cfg profile) (fun _ _ => True) (discipline cfg) fun _ _ _ => True :=
    maintains distinct
  have traced := M.traced
    (J := fun g trace => g = called trace ∧ Bounded cfg g)
    (fun _ => ⟨rfl, fun p mem => by cases mem⟩)
    (fun c g trace e r => by
      rintro ⟨rfl, bounded⟩ hok -
      exact ⟨(called_append trace [⟨e, r⟩]).symm, bounded_next bounded hok r⟩)
    trivial h task
  have bounded : Bounded cfg (called T.trace) := traced.1 ▸ traced.2
  exact ⟨bounded, bounded.length⟩

open Scenario in
/-- A provider fails once, and is called for the second and last time. -/
theorem load_bounded_retried : ∃ s ∈ run (system (service ["stripe"] 2) {}) Retries.retriedRun
    (.empty (.initial Retries.steadyCircuit [])), ∃ T, s.tasks 0 = some T ∧
      called T.trace = ["stripe", "stripe"] ∧
      (∀ p ∈ called T.trace, p ∈ ["stripe"] ∧ (called T.trace).count p ≤ 2) ∧
      (called T.trace).length ≤ 1 * 2 := by
  have h : ∃ s ∈ run (system (service ["stripe"] 2) {}) Retries.retriedRun
      (.empty (.initial Retries.steadyCircuit [])),
      (s.tasks 0).any (fun T => called T.trace = ["stripe", "stripe"]) = true := by
    decide +kernel
  obtain ⟨s, moved, twice⟩ := h
  obtain ⟨T, task, twice⟩ := (Option.any_eq_true ..).mp twice
  have reached := run_reaches _ (throughout_of_forall _ (fun _ _ _ => trivial) _) moved
  exact ⟨s, moved, T, task, of_decide_eq_true twice, load_bounded (by decide) _ _ reached task⟩

end PySwitch.Load
