import PySwitch.Api
import PySwitch.SlotInvariant

namespace PySwitch

/-- The settings of a provider. -/
structure ProviderConfig where
  successRate : ℚ := 1
  minLatencyMs : ℤ := 0
  maxLatencyMs : ℤ := 0
  timeoutProbability : ℚ := 0
  serverErrorProbability : ℚ := 0
  declineProbability : ℚ := 0
  forcedFailure : Bool := false
  maxConcurrency : ℤ := 0
  deriving DecidableEq, Repr

/-- The fields of a request to change the settings, as they are sent. -/
structure ProviderConfigBody where
  successRate : Option ℚ := none
  minLatencyMs : Option ℤ := none
  maxLatencyMs : Option ℤ := none
  timeoutProbability : Option ℚ := none
  serverErrorProbability : Option ℚ := none
  declineProbability : Option ℚ := none
  maxConcurrency : Option ℤ := none

/-- A request that has been validated. -/
structure ProviderConfigRequest extends ProviderConfigBody where
  rates : ∀ rate ∈ [successRate, timeoutProbability, serverErrorProbability, declineProbability],
    ∀ x ∈ rate, 0 ≤ x ∧ x ≤ 1
  latencies : ∀ latency ∈ [minLatencyMs, maxLatencyMs], ∀ ms ∈ latency, 0 ≤ ms
  concurrency : ∀ limit ∈ maxConcurrency, 0 ≤ limit ∧ limit ≤ 1000

def ProviderConfigRequest.validate (requestId : String) (body : ProviderConfigBody) :
    Except ErrorResponse ProviderConfigRequest :=
  if h : (∀ rate ∈ [body.successRate, body.timeoutProbability, body.serverErrorProbability,
        body.declineProbability], ∀ x ∈ rate, 0 ≤ x ∧ x ≤ 1) ∧
      (∀ latency ∈ [body.minLatencyMs, body.maxLatencyMs], ∀ ms ∈ latency, 0 ≤ ms) ∧
      ∀ limit ∈ body.maxConcurrency, 0 ≤ limit ∧ limit ≤ 1000 then
    .ok ⟨body, h.1, h.2.1, h.2.2⟩
  else .error (validationError requestId)

namespace MockProvider

/-- The settings with the changes that a request makes. -/
def configure (config : ProviderConfig) (changes : ProviderConfigRequest) : ProviderConfig :=
  { config with
    successRate := changes.successRate.getD config.successRate
    minLatencyMs := changes.minLatencyMs.getD config.minLatencyMs
    maxLatencyMs := changes.maxLatencyMs.getD config.maxLatencyMs
    timeoutProbability := changes.timeoutProbability.getD config.timeoutProbability
    serverErrorProbability := changes.serverErrorProbability.getD config.serverErrorProbability
    declineProbability := changes.declineProbability.getD config.declineProbability
    maxConcurrency := changes.maxConcurrency.getD config.maxConcurrency }

def healthCheck (config : ProviderConfig) : Bool := !config.forcedFailure

/-- What a payment is answered with, for a number drawn from 0 to 1 and a reference made for it. -/
def createPayment (config : ProviderConfig) (roll : ℚ) (reference : String) :
    Except ProviderError ProviderPaymentResult :=
  let timeout := config.timeoutProbability
  let serverError := timeout + config.serverErrorProbability
  let decline := serverError + config.declineProbability
  if config.forcedFailure then .error ⟨"PROVIDER_UNAVAILABLE", "Provider is forced to fail"⟩
  else if roll < timeout then .error ⟨"PROVIDER_TIMEOUT", "Provider request timed out"⟩
  else if roll < serverError then
    .error ⟨"PROVIDER_UNAVAILABLE", "Provider returned a server error"⟩
  else if roll < decline then .error ⟨"PAYMENT_DECLINED", "Payment was declined"⟩
  else if decline + config.successRate ≤ roll then
    .error ⟨"PAYMENT_DECLINED", "Payment was declined"⟩
  else .ok { reference := reference }

end MockProvider

namespace Administration

open Async

abbrev Configs : Type := Provider → ProviderConfig

/-- What a handler has the service do once it has changed the settings. -/
inductive Followup where
  | nothing
  | setProviderConcurrency (provider : Provider) (limit : ℕ)
  | recordSuccess (provider : Provider)

inductive Request where
  | configureProvider (provider : Provider) (body : ProviderConfigBody)
  | failProvider (provider : Provider)
  | recoverProvider (provider : Provider)

def requireAdmin (adminToken requestId : String) (token : Option String) :
    Except ErrorResponse Unit :=
  if token = some adminToken then .ok ()
  else .error ⟨401, "VALIDATION_ERROR", "Admin credentials are required", requestId, []⟩

def findProvider (providers : List Provider) (requestId : String) (provider : Provider) :
    Except ErrorResponse Unit :=
  if provider ∈ providers then .ok ()
  else .error ⟨404, "VALIDATION_ERROR", "Unknown provider", requestId, []⟩

section Handlers

variable (providers : List Provider) (requestId : String) (configs : Configs)

def configureProvider (provider : Provider) (payload : ProviderConfigRequest) :
    Except ErrorResponse (Configs × Followup) := do
  findProvider providers requestId provider
  let config := MockProvider.configure (configs provider) payload
  if config.maxLatencyMs < config.minLatencyMs then
    .error ⟨422, "VALIDATION_ERROR", "max_latency_ms must be at least min_latency_ms",
      requestId, []⟩
  else
    let followup := match payload.maxConcurrency with
      | some _ => .setProviderConcurrency provider config.maxConcurrency.toNat
      | none => .nothing
    .ok (Function.update configs provider config, followup)

def failProvider (provider : Provider) : Except ErrorResponse (Configs × Followup) := do
  findProvider providers requestId provider
  .ok (Function.update configs provider { configs provider with forcedFailure := true }, .nothing)

def recoverProvider (provider : Provider) : Except ErrorResponse (Configs × Followup) := do
  findProvider providers requestId provider
  .ok (Function.update configs provider { configs provider with forcedFailure := false },
    .recordSuccess provider)

/-- The settings after a request and what the service does then, or the error it is answered
with. The credentials are checked before the body is validated. -/
def handle (adminToken : String) (token : Option String) (request : Request) :
    Except ErrorResponse (Configs × Followup) := do
  requireAdmin adminToken requestId token
  match request with
  | .configureProvider provider body =>
    let payload ← ProviderConfigRequest.validate requestId body
    configureProvider providers requestId configs provider payload
  | .failProvider provider => failProvider providers requestId configs provider
  | .recoverProvider provider => recoverProvider providers requestId configs provider

end Handlers

/-- Everything a request that is not refused can do. -/
inductive Handled (providers : List Provider) (configs : Configs) :
    Request → Configs → Followup → Prop
  | configured {provider : Provider} {payload : ProviderConfigRequest}
    (known : provider ∈ providers)
    (ordered : (MockProvider.configure (configs provider) payload).minLatencyMs ≤
      (MockProvider.configure (configs provider) payload).maxLatencyMs)
    (unlimited : payload.maxConcurrency = none) :
    Handled providers configs (.configureProvider provider payload.toProviderConfigBody)
      (Function.update configs provider (MockProvider.configure (configs provider) payload))
      .nothing
  | limited {provider : Provider} {payload : ProviderConfigRequest} {limit : ℤ}
    (known : provider ∈ providers)
    (ordered : (MockProvider.configure (configs provider) payload).minLatencyMs ≤
      (MockProvider.configure (configs provider) payload).maxLatencyMs)
    (limited : payload.maxConcurrency = some limit) :
    Handled providers configs (.configureProvider provider payload.toProviderConfigBody)
      (Function.update configs provider (MockProvider.configure (configs provider) payload))
      (.setProviderConcurrency provider limit.toNat)
  | failed {provider : Provider} (known : provider ∈ providers) :
    Handled providers configs (.failProvider provider)
      (Function.update configs provider { configs provider with forcedFailure := true }) .nothing
  | recovered {provider : Provider} (known : provider ∈ providers) :
    Handled providers configs (.recoverProvider provider)
      (Function.update configs provider { configs provider with forcedFailure := false })
      (.recordSuccess provider)

section Handled

variable {providers : List Provider} {requestId adminToken : String} {token : Option String}
  {configs configs' : Configs} {request : Request} {followup : Followup} {provider : Provider}

theorem requireAdmin_ok {u : Unit} (h : requireAdmin adminToken requestId token = .ok u) :
    token = some adminToken := by
  unfold requireAdmin at h
  split at h
  · assumption
  · cases h

theorem findProvider_ok {u : Unit} (h : findProvider providers requestId provider = .ok u) :
    provider ∈ providers := by
  unfold findProvider at h
  split at h
  · assumption
  · cases h

theorem bind_ok {α β : Type} {x : Except ErrorResponse α} {f : α → Except ErrorResponse β} {b : β}
    (h : (x >>= f) = .ok b) : ∃ a, x = .ok a ∧ f a = .ok b := by
  cases x with
  | error e => cases h
  | ok a => exact ⟨a, rfl, h⟩

theorem validate_ok {body : ProviderConfigBody} {payload : ProviderConfigRequest}
    (h : ProviderConfigRequest.validate requestId body = .ok payload) :
    payload.toProviderConfigBody = body := by
  unfold ProviderConfigRequest.validate at h
  split at h
  · cases h
    rfl
  · cases h

theorem configureProvider_ok {payload : ProviderConfigRequest}
    (h : configureProvider providers requestId configs provider payload =
      .ok (configs', followup)) :
    Handled providers configs (.configureProvider provider payload.toProviderConfigBody)
      configs' followup := by
  obtain ⟨_, found, h⟩ := bind_ok h
  have known := findProvider_ok found
  dsimp only at h
  split at h
  · cases h
  · rename_i ordered
    have ordered := not_lt.mp ordered
    cases limit : payload.maxConcurrency with
    | none =>
      rw [limit] at h
      cases h
      exact .configured known ordered limit
    | some n =>
      have same : (MockProvider.configure (configs provider) payload).maxConcurrency = n := by
        simp [MockProvider.configure, limit]
      rw [limit, same] at h
      cases h
      exact .limited known ordered limit

theorem handle_ok (h : handle providers requestId configs adminToken token request =
    .ok (configs', followup)) :
    token = some adminToken ∧ Handled providers configs request configs' followup := by
  obtain ⟨_, admin, h⟩ := bind_ok h
  refine ⟨requireAdmin_ok admin, ?_⟩
  cases request with
  | configureProvider provider body =>
    obtain ⟨payload, valid, h⟩ := bind_ok h
    rw [← validate_ok valid]
    exact configureProvider_ok h
  | failProvider provider =>
    obtain ⟨_, found, h⟩ := bind_ok h
    cases h
    exact .failed (findProvider_ok found)
  | recoverProvider provider =>
    obtain ⟨_, found, h⟩ := bind_ok h
    cases h
    exact .recovered (findProvider_ok found)

end Handled

/-- A process of the service and the settings of its providers. -/
structure Administered where
  service : ServiceState
  configs : Configs

inductive AdminLabel where
  | service (l : ServiceLabel)
  | request (t : Tid) (requestId : String) (token : Option String) (request : Request)

section Steps

variable (cfg : Config) (profile : Profile) (adminToken : String)

def Followup.perform (t : Tid) : Followup → ServiceState → Option ServiceState
  | .nothing, s => some s
  | .setProviderConcurrency provider limit, s =>
    step (system cfg profile) (.outside (.setProviderConcurrency provider limit)) s
  | .recordSuccess provider, s => step (system cfg profile) (.call t (.recover provider)) s

/-- Limits on concurrency are set by requests only. A request is handled when no call runs; when
it is refused, nothing happens. -/
def adminStep : AdminLabel → Administered → Option Administered
  | .service (.outside (.setProviderConcurrency _ _)), _ => none
  | .service l, s =>
    (step (system cfg profile) l s.service).map fun service => ⟨service, s.configs⟩
  | .request t requestId token request, s =>
    if s.service.running = none then
      match handle cfg.providers requestId s.configs adminToken token request with
      | .ok (configs, followup) =>
        (followup.perform cfg profile t s.service).map fun service => ⟨service, configs⟩
      | .error _ => some s
    else none

def adminRun : List AdminLabel → Administered → Option Administered
  | [], s => some s
  | l :: ls, s => (adminStep cfg profile adminToken l s).bind (adminRun ls)

/-- The limit a provider is built with: its own, or that of the service if it has none. -/
def builtLimit (providerConcurrencyLimit : ℕ) (config : ProviderConfig) : ℕ :=
  if config.maxConcurrency = 0 then providerConcurrencyLimit else config.maxConcurrency.toNat

def built (circuit : CircuitBreaker) (providerConcurrencyLimit : ℕ) (configs : Configs) :
    Administered where
  service := .empty (.initial circuit (cfg.providers.map fun provider =>
    (provider, builtLimit providerConcurrencyLimit (configs provider))))
  configs := configs

end Steps

/-- The limit of the semaphore in force for a provider, 0 when there is none. -/
def limitOf (process : Process) (provider : Provider) : ℕ :=
  match process.currentSemaphore provider with
  | some n => (process.semaphores n).limit
  | none => 0

def Known (process : Process) : Prop :=
  ∀ q n, process.currentSemaphore q = some n → n < process.nextSemaphore

section Limits

variable {process process' : Process}

theorem known_configured (known : Known process) (provider : Provider) (limit : ℕ) :
    Known (process.setProviderConcurrency provider limit) := fun _ _ at_ =>
  Slots.known_configured (fun {q n} => known q n) provider limit at_

theorem limitOf_configured (known : Known process) (provider : Provider) (limit : ℕ)
    (q : Provider) : limitOf (process.setProviderConcurrency provider limit) q =
      if q = provider then limit else limitOf process q := by
  by_cases same : q = provider
  · subst same
    by_cases unlimited : limit = 0
    · simp [limitOf, Process.setProviderConcurrency, unlimited]
    · simp [limitOf, Process.setProviderConcurrency, unlimited, Semaphore.make]
  · cases current : process.currentSemaphore q with
    | none => simp [limitOf, Process.setProviderConcurrency, same, current]
    | some n =>
      have older : n ≠ process.nextSemaphore := (known q n current).ne
      simp [limitOf, Process.setProviderConcurrency, same, current, older]

theorem limitOf_quiet {t : Tid} (quiet : Slots.Quiet t process process') (q : Provider) :
    limitOf process' q = limitOf process q := by
  unfold limitOf
  rw [quiet.current]
  cases process.currentSemaphore q with
  | none => rfl
  | some n => exact (quiet.spares n).limit

theorem known_quiet {t : Tid} (quiet : Slots.Quiet t process process') (known : Known process) :
    Known process' := by
  intro q n at_
  rw [quiet.current] at at_
  rw [quiet.next]
  exact known q n at_

theorem initial_limits (circuit : CircuitBreaker) (providers : List Provider)
    (limit : Provider → ℕ) :
    Known (.initial circuit (providers.map fun p => (p, limit p))) ∧
    ∀ q, limitOf (.initial circuit (providers.map fun p => (p, limit p))) q =
      if q ∈ providers then limit q else 0 := by
  have all (l : List Provider) (process : Process) (known : Known process) :
      Known ((l.map fun p => (p, limit p)).foldl
        (fun process c => process.setProviderConcurrency c.1 c.2) process) ∧
      ∀ q, limitOf ((l.map fun p => (p, limit p)).foldl
        (fun process c => process.setProviderConcurrency c.1 c.2) process) q =
          if q ∈ l then limit q else limitOf process q := by
    induction l generalizing process with
    | nil => exact ⟨known, fun q => rfl⟩
    | cons p l ih =>
      obtain ⟨known', limits⟩ := ih _ (known_configured known p (limit p))
      refine ⟨known', fun q => (limits q).trans ?_⟩
      rw [limitOf_configured known]
      by_cases later : q ∈ l
      · simp [later]
      · by_cases here : q = p
        · simp [here]
        · simp [later, here]
  exact all providers _ fun q n at_ => by cases at_

end Limits

/-- Settings as a request can make them. -/
structure WellFormed (config : ProviderConfig) : Prop where
  rates : ∀ rate ∈ [config.successRate, config.timeoutProbability, config.serverErrorProbability,
    config.declineProbability], 0 ≤ rate ∧ rate ≤ 1
  latency : 0 ≤ config.minLatencyMs ∧ config.minLatencyMs ≤ config.maxLatencyMs
  concurrency : 0 ≤ config.maxConcurrency ∧ config.maxConcurrency ≤ 1000

structure Inv (cfg : Config) (s : Administered) : Prop where
  known : Known s.service.world.process
  wellFormed : ∀ p ∈ cfg.providers, WellFormed (s.configs p)
  unknown : ∀ p ∉ cfg.providers, limitOf s.service.world.process p = 0

section Kept

variable {cfg : Config} {profile : Profile} {adminToken : String} {s s' : Administered}

theorem getD_keeps {α : Type} {P : α → Prop} {x : α} (o : Option α) (old : P x)
    (new : ∀ y ∈ o, P y) : P (o.getD x) := by
  cases o with
  | none => exact old
  | some y => exact new y rfl

theorem wellFormed_configure {config : ProviderConfig} (payload : ProviderConfigRequest)
    (before : WellFormed config)
    (ordered : (MockProvider.configure config payload).minLatencyMs ≤
      (MockProvider.configure config payload).maxLatencyMs) :
    WellFormed (MockProvider.configure config payload) := by
  have rates := payload.rates
  have latencies := payload.latencies
  have old := before.rates
  simp only [List.forall_mem_cons] at rates latencies old
  refine ⟨?_, ⟨getD_keeps (P := (0 ≤ ·)) _ before.latency.1 latencies.1, ordered⟩,
    getD_keeps (P := fun n => 0 ≤ n ∧ n ≤ 1000) _ before.concurrency payload.concurrency⟩
  simp only [List.forall_mem_cons]
  have share {x : ℚ} (o : Option ℚ) : (0 ≤ x ∧ x ≤ 1) → (∀ y ∈ o, 0 ≤ y ∧ y ≤ 1) →
      0 ≤ o.getD x ∧ o.getD x ≤ 1 := getD_keeps (P := fun x => 0 ≤ x ∧ x ≤ 1) o
  exact ⟨share _ old.1 rates.1, share _ old.2.1 rates.2.1, share _ old.2.2.1 rates.2.2.1,
    share _ old.2.2.2.1 rates.2.2.2.1, old.2.2.2.2⟩

theorem inv_service {service : ServiceState} {t : Tid} (inv : Inv cfg s)
    (quiet : Slots.Quiet t s.service.world.process service.world.process) :
    Inv cfg ⟨service, s.configs⟩ where
  known := known_quiet quiet inv.known
  wellFormed := inv.wellFormed
  unknown p mem := by
    rw [limitOf_quiet quiet]
    exact inv.unknown p mem

/-- The settings of one provider are changed, and no limit but its own. -/
theorem inv_update {service : ServiceState} {provider : Provider} {config : ProviderConfig}
    (inv : Inv cfg s) (mem : provider ∈ cfg.providers)
    (known : Known service.world.process) (wellFormed : WellFormed config)
    (others : ∀ q ≠ provider,
      limitOf service.world.process q = limitOf s.service.world.process q) :
    Inv cfg ⟨service, Function.update s.configs provider config⟩ where
  known := known
  wellFormed p hp := by
    by_cases same : p = provider
    · subst same
      simpa using wellFormed
    · simpa [same] using inv.wellFormed p hp
  unknown p hp := by
    have other : p ≠ provider := fun same => hp (same ▸ mem)
    rw [others p other]
    exact inv.unknown p hp

theorem step_quiet {service service' : ServiceState} {l : ServiceLabel}
    (other : ∀ provider n, l ≠ .outside (.setProviderConcurrency provider n))
    (moved : step (system cfg profile) l service = some service') :
    ∃ t, Slots.Quiet t service.world.process service'.world.process := by
  cases step_moves _ moved with
  | @call t c idle new => exact ⟨t, .refl t _⟩
  | @reply l t T e k r w task code delivered => exact ⟨t, Slots.reply_quiet delivered⟩
  | @wait l t T e k w task code delivered => exact ⟨t, Slots.wait_quiet delivered⟩
  | @outside a w idle applied =>
    cases a with
    | setProviderConcurrency provider n => exact absurd rfl (other provider n)
    | tick elapsed =>
      obtain ⟨r, -, rfl⟩ := Option.map_eq_some_iff.mp applied
      exact ⟨0, .refl 0 _⟩

theorem inv_handled {configs : Configs} {request : Request} {followup : Followup}
    {service : ServiceState} {t : Tid} (inv : Inv cfg s)
    (handled : Handled cfg.providers s.configs request configs followup)
    (performed : followup.perform cfg profile t s.service = some service) :
    Inv cfg ⟨service, configs⟩ := by
  cases handled with
  | @configured provider payload known ordered unlimited =>
    cases performed
    exact inv_update inv known inv.known
      (wellFormed_configure payload (inv.wellFormed provider known) ordered) fun _ _ => rfl
  | @limited provider payload n known ordered limited =>
    simp only [Followup.perform, step] at performed
    split at performed
    · cases performed
      refine inv_update inv known (known_configured inv.known provider n.toNat)
        (wellFormed_configure payload (inv.wellFormed provider known) ordered) fun q other => ?_
      exact (limitOf_configured inv.known provider n.toNat q).trans (by simp [other])
    · cases performed
  | @failed provider known =>
    cases performed
    obtain ⟨rates, latency, concurrency⟩ := inv.wellFormed provider known
    exact inv_update inv known inv.known ⟨rates, latency, concurrency⟩ fun _ _ => rfl
  | @recovered provider known =>
    have called : step (system cfg profile) (.call t (.recover provider)) s.service =
        some service := performed
    obtain ⟨u, quiet⟩ := step_quiet (fun _ _ same => by cases same) called
    obtain ⟨rates, latency, concurrency⟩ := inv.wellFormed provider known
    exact inv_update inv known (known_quiet quiet inv.known) ⟨rates, latency, concurrency⟩
      fun q _ => limitOf_quiet quiet q

/-- Everything a step can do. -/
theorem adminStep_cases {l : AdminLabel} (moved : adminStep cfg profile adminToken l s = some s') :
    (∃ l' t, l = .service l' ∧ s'.configs = s.configs ∧
      Slots.Quiet t s.service.world.process s'.service.world.process) ∨
    ∃ t requestId token request, l = .request t requestId token request ∧
      ((∃ e, handle cfg.providers requestId s.configs adminToken token request = .error e ∧
        s' = s) ∨
      ∃ followup, handle cfg.providers requestId s.configs adminToken token request =
        .ok (s'.configs, followup) ∧
        followup.perform cfg profile t s.service = some s'.service) := by
  cases l with
  | service l =>
    have other : ∀ provider n, l ≠ .outside (.setProviderConcurrency provider n) := by
      rintro provider n rfl
      cases moved
    have mapped : (step (system cfg profile) l s.service).map
        (fun service => (⟨service, s.configs⟩ : Administered)) = some s' := by
      rw [← moved]
      cases l with
      | outside a =>
        cases a with
        | setProviderConcurrency provider n => exact absurd rfl (other provider n)
        | tick elapsed => rfl
      | _ => rfl
    obtain ⟨service, stepped, rfl⟩ := Option.map_eq_some_iff.mp mapped
    obtain ⟨t, quiet⟩ := step_quiet other stepped
    exact .inl ⟨l, t, rfl, rfl, quiet⟩
  | request t requestId token request =>
    refine .inr ⟨t, requestId, token, request, rfl, ?_⟩
    simp only [adminStep] at moved
    split at moved
    · cases answer : handle cfg.providers requestId s.configs adminToken token request with
      | error e =>
        rw [answer] at moved
        cases moved
        exact .inl ⟨e, rfl, rfl⟩
      | ok done =>
        obtain ⟨configs, followup⟩ := done
        rw [answer] at moved
        obtain ⟨service, performed, rfl⟩ := Option.map_eq_some_iff.mp moved
        exact .inr ⟨followup, rfl, performed⟩
    · cases moved

theorem inv_step {l : AdminLabel} (inv : Inv cfg s)
    (moved : adminStep cfg profile adminToken l s = some s') : Inv cfg s' := by
  obtain ⟨l', t, rfl, same, quiet⟩ | ⟨t, requestId, token, request, rfl, answer⟩ :=
    adminStep_cases moved
  · have kept := inv_service inv quiet
    rw [← same] at kept
    exact kept
  · obtain ⟨e, -, rfl⟩ | ⟨followup, answer, performed⟩ := answer
    · exact inv
    · exact inv_handled inv (handle_ok answer).2 performed

theorem inv_built (circuit : CircuitBreaker) (limit : ℕ) {configs : Configs}
    (wellFormed : ∀ p ∈ cfg.providers, WellFormed (configs p)) :
    Inv cfg (built cfg circuit limit configs) := by
  obtain ⟨known, limits⟩ :=
    initial_limits circuit cfg.providers fun p => builtLimit limit (configs p)
  refine ⟨known, wellFormed, fun p mem => ?_⟩
  have at_ := limits p
  rw [if_neg mem] at at_
  exact at_

end Kept

section Results

variable {cfg : Config} {profile : Profile} {adminToken : String} {s s' : Administered}
  {p : Provider}

/-- The settings of a provider and the limit in force for it. -/
abbrev Settings : Type := ProviderConfig × ℕ

/-- What a valid request for a provider makes of its settings: all it gives is taken over if the
latencies are in order then, and a limit it gives comes into force. -/
def reconfigured (payload : ProviderConfigRequest) (now : Settings) : Settings :=
  if (MockProvider.configure now.1 payload).maxLatencyMs <
      (MockProvider.configure now.1 payload).minLatencyMs then now
  else (MockProvider.configure now.1 payload, (payload.maxConcurrency.map Int.toNat).getD now.2)

/-- The settings of a provider after a step, by the requests that are authorised. -/
def settingsAfter (adminToken : String) (p : Provider) (now : Settings) : AdminLabel → Settings
  | .request _ requestId token (.configureProvider q body) =>
    if token = some adminToken ∧ q = p then
      match ProviderConfigRequest.validate requestId body with
      | .ok payload => reconfigured payload now
      | .error _ => now
    else now
  | .request _ _ token (.failProvider q) =>
    if token = some adminToken ∧ q = p then ({ now.1 with forcedFailure := true }, now.2) else now
  | .request _ _ token (.recoverProvider q) =>
    if token = some adminToken ∧ q = p then ({ now.1 with forcedFailure := false }, now.2) else now
  | .service _ => now

def settingsOf (s : Administered) (p : Provider) : Settings :=
  (s.configs p, limitOf s.service.world.process p)

/-- The limit in force for a provider after what the service does for a request. -/
def Followup.limit (p : Provider) (limit : ℕ) : Followup → ℕ
  | .setProviderConcurrency q n => if q = p then n else limit
  | _ => limit

section Requests

variable {t : Tid} {requestId : String} {token : Option String} {configs configs' : Configs}
  {request : Request} {followup : Followup} {limit : ℕ}

theorem validate_valid (payload : ProviderConfigRequest) :
    ProviderConfigRequest.validate requestId payload.toProviderConfigBody = .ok payload := by
  unfold ProviderConfigRequest.validate
  rw [dif_pos ⟨payload.rates, payload.latencies, payload.concurrency⟩]

/-- The settings after a request that is not refused are the ones it asks for. -/
theorem settings_handled (authorised : token = some adminToken)
    (handled : Handled cfg.providers configs request configs' followup) :
    (configs' p, followup.limit p limit) =
      settingsAfter adminToken p (configs p, limit) (.request t requestId token request) := by
  cases handled with
  | @configured q payload _ ordered unlimited =>
    by_cases same : q = p
    · subst same
      simp [settingsAfter, authorised, validate_valid, reconfigured, not_lt.mpr ordered,
        unlimited, Followup.limit]
    · simp [settingsAfter, same, Ne.symm same, Followup.limit]
  | @limited q payload n _ ordered limited =>
    by_cases same : q = p
    · subst same
      simp [settingsAfter, authorised, validate_valid, reconfigured, not_lt.mpr ordered, limited,
        Followup.limit]
    · simp [settingsAfter, same, Ne.symm same, Followup.limit]
  | @failed q _ =>
    by_cases same : q = p
    · subst same
      simp [settingsAfter, authorised, Followup.limit]
    · simp [settingsAfter, same, Ne.symm same, Followup.limit]
  | @recovered q _ =>
    by_cases same : q = p
    · subst same
      simp [settingsAfter, authorised, Followup.limit]
    · simp [settingsAfter, same, Ne.symm same, Followup.limit]

/-- A request for a provider that is there is refused only where it would change nothing. -/
theorem settings_refused {e : ErrorResponse} (mem : p ∈ cfg.providers)
    (refused : handle cfg.providers requestId configs adminToken token request = .error e) :
    (configs p, limit) =
      settingsAfter adminToken p (configs p, limit) (.request t requestId token request) := by
  by_cases authorised : token = some adminToken
  · cases request with
    | configureProvider q body =>
      by_cases same : q = p
      · subst same
        cases valid : ProviderConfigRequest.validate requestId body with
        | error e => simp [settingsAfter, authorised, valid]
        | ok payload =>
          by_cases unordered : (MockProvider.configure (configs q) payload).maxLatencyMs <
              (MockProvider.configure (configs q) payload).minLatencyMs
          · simp [settingsAfter, authorised, valid, reconfigured, unordered]
          · simp [handle, requireAdmin, authorised, valid, configureProvider, findProvider, mem,
              unordered, bind, Except.bind] at refused
      · simp [settingsAfter, same]
    | failProvider q =>
      by_cases same : q = p
      · subst same
        simp [handle, requireAdmin, authorised, failProvider, findProvider, mem, bind,
          Except.bind] at refused
      · simp [settingsAfter, same]
    | recoverProvider q =>
      by_cases same : q = p
      · subst same
        simp [handle, requireAdmin, authorised, recoverProvider, findProvider, mem, bind,
          Except.bind] at refused
      · simp [settingsAfter, same]
  · cases request <;> simp [settingsAfter, authorised]

theorem limit_performed {service service' : ServiceState} (known : Known service.world.process)
    (performed : followup.perform cfg profile t service = some service') (p : Provider) :
    limitOf service'.world.process p = followup.limit p (limitOf service.world.process p) := by
  cases followup with
  | nothing =>
    cases performed
    rfl
  | setProviderConcurrency q n =>
    simp only [Followup.perform, step] at performed
    split at performed
    · cases performed
      exact (limitOf_configured known q n p).trans (by simp [Followup.limit, eq_comm])
    · cases performed
  | recordSuccess q =>
    obtain ⟨u, quiet⟩ := step_quiet (fun _ _ same => by cases same)
      (show step (system cfg profile) (.call t (.recover q)) service = some service' from
        performed)
    exact limitOf_quiet quiet p

end Requests

/-- The settings of a provider change with the requests only, those in force with the settings. -/
theorem settings_step {l : AdminLabel} (mem : p ∈ cfg.providers)
    (moved : adminStep cfg profile adminToken l s = some s') :
    (∀ limit, s'.configs p = (settingsAfter adminToken p (s.configs p, limit) l).1) ∧
    (Known s.service.world.process →
      settingsOf s' p = settingsAfter adminToken p (settingsOf s p) l) := by
  obtain ⟨l', t, rfl, same, quiet⟩ | ⟨t, requestId, token, request, rfl, answer⟩ :=
    adminStep_cases moved
  · refine ⟨fun _ => congrFun same p, fun _ => ?_⟩
    simp only [settingsOf, settingsAfter, same, limitOf_quiet quiet]
  · obtain ⟨e, refused, rfl⟩ | ⟨followup, answer, performed⟩ := answer
    · exact ⟨fun _ => congrArg Prod.fst (settings_refused mem refused),
        fun _ => settings_refused mem refused⟩
    · obtain ⟨authorised, handled⟩ := handle_ok answer
      have settled (limit : ℕ) : (s'.configs p, followup.limit p limit) = settingsAfter adminToken p
          (s.configs p, limit) (.request t requestId token request) :=
        settings_handled authorised handled
      refine ⟨fun limit => congrArg Prod.fst (settled limit), fun known => ?_⟩
      rw [settingsOf, limit_performed known performed]
      exact settled _

theorem settings_run {ls : List AdminLabel} (inv : Inv cfg s)
    (h : adminRun cfg profile adminToken ls s = some s') :
    Inv cfg s' ∧ ∀ p ∈ cfg.providers,
      settingsOf s' p = ls.foldl (settingsAfter adminToken p) (settingsOf s p) := by
  induction ls generalizing s with
  | nil =>
    cases h
    exact ⟨inv, fun _ _ => rfl⟩
  | cons l ls ih =>
    obtain ⟨v, moved, h⟩ := Option.bind_eq_some_iff.mp h
    obtain ⟨kept, settled⟩ := ih (inv_step inv moved) h
    refine ⟨kept, fun p mem => ?_⟩
    rw [settled p mem, (settings_step mem moved).2 inv.known]
    rfl

theorem limitOf_built (circuit : CircuitBreaker) (limit : ℕ) {configs : Configs}
    (mem : p ∈ cfg.providers) :
    limitOf (built cfg circuit limit configs).service.world.process p =
      builtLimit limit (configs p) := by
  obtain ⟨-, limits⟩ :=
    initial_limits circuit cfg.providers fun p => builtLimit limit (configs p)
  exact (limits p).trans (if_pos mem)

/-- In every state of a service that is administered: the settings of its providers are ones that
requests can make, they and the limits in force are what the authorised requests have made of
those the service was built with, and nothing is limited that the service does not have. -/
theorem settings_applied (circuit : CircuitBreaker) (limit : ℕ) {configs : Configs}
    (wellFormed : ∀ p ∈ cfg.providers, WellFormed (configs p)) {ls : List AdminLabel}
    (h : adminRun cfg profile adminToken ls (built cfg circuit limit configs) = some s) :
    (∀ p ∈ cfg.providers, WellFormed (s.configs p) ∧
      (s.configs p, limitOf s.service.world.process p) =
        ls.foldl (settingsAfter adminToken p) (configs p, builtLimit limit (configs p))) ∧
    ∀ p ∉ cfg.providers, limitOf s.service.world.process p = 0 := by
  obtain ⟨inv, settled⟩ := settings_run (inv_built circuit limit wellFormed) h
  refine ⟨fun p mem => ⟨inv.wellFormed p mem, ?_⟩, inv.unknown⟩
  rw [← limitOf_built circuit limit mem]
  exact settled p mem

open Scenario in
/-- A limit of 2 is set for a provider and lifted again, which does not bring back the limit that
it was built with. Then one of 5 is asked for without credentials. -/
theorem settings_applied_limited :
    ∃ s ∈ adminRun (service ["stripe"] 1) {} "admin"
        [.request 0 "r" (some "admin") (.configureProvider "stripe" { maxConcurrency := some 2 }),
          .request 0 "r" (some "admin") (.configureProvider "stripe" { maxConcurrency := some 0 }),
          .request 0 "r" none (.configureProvider "stripe" { maxConcurrency := some 5 })]
        (built (service ["stripe"] 1) fragile 7 fun _ => {}),
      limitOf (built (service ["stripe"] 1) fragile 7 fun _ => {}).service.world.process
        "stripe" = 7 ∧
      (s.configs "stripe").maxConcurrency = 0 ∧ limitOf s.service.world.process "stripe" = 0 ∧
      WellFormed (s.configs "stripe") ∧ limitOf s.service.world.process "adyen" = 0 := by
  have h : ∃ s, adminRun (service ["stripe"] 1) {} "admin"
        [.request 0 "r" (some "admin") (.configureProvider "stripe" { maxConcurrency := some 2 }),
          .request 0 "r" (some "admin") (.configureProvider "stripe" { maxConcurrency := some 0 }),
          .request 0 "r" none (.configureProvider "stripe" { maxConcurrency := some 5 })]
        (built (service ["stripe"] 1) fragile 7 fun _ => {}) = some s :=
    Option.isSome_iff_exists.mp (by decide +kernel)
  obtain ⟨s, run⟩ := h
  have default : ∀ p ∈ (service ["stripe"] 1).providers, WellFormed {} := fun _ _ =>
    ⟨by decide, by decide, by decide⟩
  obtain ⟨settings, unknown⟩ := settings_applied fragile 7 default run
  obtain ⟨wellFormed, settled⟩ := settings "stripe" (by decide)
  obtain ⟨config, limit⟩ := Prod.mk.inj settled
  exact ⟨s, run, limitOf_built fragile 7 (by decide), by rw [config]; decide +kernel,
    by rw [limit]; decide +kernel, wellFormed, unknown "adyen" (by decide)⟩

/-- A task that waits for a provider can go on with each answer of the mock: to a health check with
that of the settings now, to a payment with that of the settings it began with, whichever they
were. -/
theorem mock_answers {t : Tid} (idle : s.service.running = none) :
    (s.service.At t (.provider (.healthCheck p)) →
      (adminStep cfg profile adminToken (.service (.resume t
        (.healthy (.ok (MockProvider.healthCheck (s.configs p)))))) s).isSome) ∧
    ∀ paymentId, s.service.At t (.provider (.finishPayment p paymentId)) →
      ∀ config roll reference, (adminStep cfg profile adminToken (.service (.resume t (.outcome
        ((MockProvider.createPayment config roll reference).mapError .provider)))) s).isSome := by
  have serves {e : ProviderEffect} (reached : s.service.At t (.provider e)) {i : Input}
      {r : e.Reply} {w : World} (answer : e.resume t i s.service.world = .reply r w) :
      (adminStep cfg profile adminToken (.service (.resume t i)) s).isSome := by
    obtain ⟨T, task, head⟩ := reached
    obtain ⟨k, code⟩ := Coroutine.perform_of_head head
    have moved := step_resume (system cfg profile) idle task code answer
    simp only [adminStep, moved, Option.map_some, Option.isSome_some]
  exact ⟨fun reached => serves reached rfl, fun _ reached _ _ _ => serves reached rfl⟩

/-- Whether a provider is made to fail after a step, by the requests that are authorised. -/
def failedAfter (adminToken : String) (p : Provider) (failed : Bool) : AdminLabel → Bool
  | .request _ _ token (.failProvider q) => (token = some adminToken && q = p) || failed
  | .request _ _ token (.recoverProvider q) => !(token = some adminToken && q = p) && failed
  | _ => failed

theorem forced_settings (now : Settings) (l : AdminLabel) :
    (settingsAfter adminToken p now l).1.forcedFailure =
      failedAfter adminToken p now.1.forcedFailure l := by
  cases l with
  | service l => rfl
  | request t requestId token request =>
    cases request with
    | configureProvider q body =>
      simp only [settingsAfter, failedAfter]
      split
      · split
        · unfold reconfigured
          split <;> rfl
        · rfl
      · rfl
    | failProvider q =>
      by_cases authorised : token = some adminToken <;> by_cases same : q = p <;>
        simp [settingsAfter, failedAfter, authorised, same]
    | recoverProvider q =>
      by_cases authorised : token = some adminToken <;> by_cases same : q = p <;>
        simp [settingsAfter, failedAfter, authorised, same]

/-- A provider is unhealthy, and answers every payment with an error, from an authorised request
to fail until one to recover, whatever else happens; and at no other time is it unhealthy. -/
theorem health_follows_requests {ls : List AdminLabel} (mem : p ∈ cfg.providers)
    (h : adminRun cfg profile adminToken ls s = some s') :
    MockProvider.healthCheck (s'.configs p) =
      !ls.foldl (failedAfter adminToken p) (s.configs p).forcedFailure ∧
    (MockProvider.healthCheck (s'.configs p) = false → ∀ roll reference,
      MockProvider.createPayment (s'.configs p) roll reference =
        .error ⟨"PROVIDER_UNAVAILABLE", "Provider is forced to fail"⟩) := by
  have forced : (s'.configs p).forcedFailure =
      ls.foldl (failedAfter adminToken p) (s.configs p).forcedFailure := by
    induction ls generalizing s with
    | nil =>
      cases h
      rfl
    | cons l ls ih =>
      obtain ⟨v, moved, h⟩ := Option.bind_eq_some_iff.mp h
      rw [ih h, (settings_step mem moved).1 0, forced_settings]
      rfl
  refine ⟨by rw [MockProvider.healthCheck, forced], fun unhealthy roll reference => ?_⟩
  have failing : (s'.configs p).forcedFailure = true := by
    simpa [MockProvider.healthCheck] using unhealthy
  simp [MockProvider.createPayment, failing]

open Scenario in
/-- A provider is made to fail; a request to recover it has no credentials. -/
theorem health_follows_requests_failed :
    ∃ s ∈ adminRun (service ["stripe"] 1) {} "admin"
        [.request 0 "r" (some "admin") (.failProvider "stripe"),
          .request 0 "r" none (.recoverProvider "stripe")]
        (built (service ["stripe"] 1) fragile 1 fun _ => {}),
      MockProvider.healthCheck (s.configs "stripe") = false ∧
      MockProvider.createPayment (s.configs "stripe") 0 "reference" =
        .error ⟨"PROVIDER_UNAVAILABLE", "Provider is forced to fail"⟩ := by
  have h : ∃ s, adminRun (service ["stripe"] 1) {} "admin"
        [.request 0 "r" (some "admin") (.failProvider "stripe"),
          .request 0 "r" none (.recoverProvider "stripe")]
        (built (service ["stripe"] 1) fragile 1 fun _ => {}) = some s :=
    Option.isSome_iff_exists.mp (by decide +kernel)
  obtain ⟨s, run⟩ := h
  obtain ⟨health, failing⟩ := health_follows_requests (p := "stripe") (by decide) run
  have unhealthy : MockProvider.healthCheck (s.configs "stripe") = false := health
  exact ⟨s, run, unhealthy, failing unhealthy 0 "reference"⟩

end Results

end Administration

end PySwitch
