import PySwitch.Async.Protocol
import PySwitch.Service

namespace PySwitch.Visits

open Async Program Service

/-- How a visit to a provider ends once its calls have raised what they raise. -/
inductive Ending where
  | returned
  | refused
  | gaveUp
  deriving DecidableEq

/-- The calls of one visit: all that raised a `ProviderError`, and one that returned if there is
one. -/
structure Visit where
  provider : Provider
  errors : List ProviderError
  ending : Ending

/-- What an attempt says about the call it stands for. -/
structure Mark where
  provider : Provider
  attemptNumber : ℕ
  result : AttemptResult
  errorCode : Option String
  deriving DecidableEq

def mark (a : PaymentAttempt) : Mark := ⟨a.provider, a.attemptNumber, a.result, a.errorCode⟩

def errorMark (provider : Provider) (before : ℕ) (error : ProviderError) : Mark :=
  ⟨provider, before + 1, if isRetryable error then .retry else .failed, some error.code⟩

def errorMarks (provider : Provider) (errors : List ProviderError) : List Mark :=
  errors.mapIdx (errorMark provider)

def failLastMark : List Mark → List Mark
  | [] => []
  | [m] => [{ m with result := .failed }]
  | m :: marks => m :: failLastMark marks

theorem mark_failLast (attempts : List PaymentAttempt) :
    (failLast attempts).map mark = failLastMark (attempts.map mark) := by
  fun_induction failLast attempts with
  | case1 => rfl
  | case2 attempt => rfl
  | case3 attempt attempts some ih =>
    cases attempts with
    | nil => exact absurd rfl some
    | cons next attempts => simp only [List.map_cons, failLastMark, ih]

theorem errorMarks_concat (provider : Provider) (errors : List ProviderError)
    (error : ProviderError) : errorMarks provider (errors ++ [error]) =
      errorMarks provider errors ++ [errorMark provider errors.length error] :=
  List.mapIdx_concat

def Visit.marks (v : Visit) : List Mark :=
  if v.ending = .returned then
    errorMarks v.provider v.errors ++ [⟨v.provider, v.errors.length + 1, .succeeded, none⟩]
  else failLastMark (errorMarks v.provider v.errors)

def Visit.calls (v : Visit) : ℕ := v.errors.length + if v.ending = .returned then 1 else 0

/-- The attempts of a payment are the calls of the visits, in their order. -/
def History (visits : List Visit) (p : Payment) : Prop :=
  p.attempts.map mark = visits.flatMap Visit.marks

theorem History.extended {visits : List Visit} {p : Payment} (h : History visits p) {v : Visit}
    {attempts : List PaymentAttempt} (hv : attempts.map mark = v.marks) :
    History (visits ++ [v]) { p with attempts := p.attempts ++ attempts } := by
  have hp : p.attempts.map mark = visits.flatMap Visit.marks := h
  simp [History, hp, hv]

/-- A new payment between its visits: those that have ended, the provider that is visited, the
candidates after it and what the visit has met so far. -/
structure Draft where
  id : Uuid
  visits : List Visit
  provider : Provider
  rest : List Provider
  errors : List ProviderError

/-- Where a call is with its payment. The stages from `found` on are those of a refund. -/
inductive Stage where
  | outside
  | ordered
  | routing (id : Uuid)
  | asking (d : Draft)
  | permitted (d : Draft)
  | calling (d : Draft)
  | returned (d : Draft) (result : ProviderPaymentResult)
  | failed (id : Uuid) (visits : List Visit)
  | saved (id : Uuid) (visits : List Visit)
  | abandoned (id : Uuid)
  | found (payment : Payment)
  | applying (payment : Payment)

namespace Draft

def close (d : Draft) (ending : Ending) : List Visit :=
  d.visits ++ [⟨d.provider, d.errors, ending⟩]

def raised (d : Draft) (error : ProviderError) : Draft := { d with errors := d.errors ++ [error] }

end Draft

/-- The visit to the first candidate there is. -/
def visit (id : Uuid) (visits : List Visit) : List Provider → Stage
  | [] => .failed id visits
  | provider :: rest => .asking ⟨id, visits, provider, rest, []⟩

namespace Draft

/-- What comes after a visit that ended with an error. -/
def leave (d : Draft) (ending : Ending) (code : String) : Stage :=
  if code ∈ failoverErrors then visit d.id (d.close ending) d.rest
  else .failed d.id (d.close ending)

/-- What comes after a call that raised: another round of the retry loop, or the end of the
visit. A delay too large for a `float` ends the call of the service itself. -/
def fail (policy : RetryPolicy) (d : Draft) (error : ProviderError) : Stage :=
  if isRetryable error = false ∨ d.errors.length + 1 = policy.maxAttempts then
    (d.raised error).leave .gaveUp error.code
  else if 1024 ≤ d.errors.length then .abandoned d.id
  else .asking (d.raised error)

end Draft

namespace Stage

def draw (g : Stage) (id : Uuid) : Stage :=
  match g with
  | .ordered => .routing id
  | g => g

def choose (g : Stage) (healthy : List Provider) (provider : Provider) : Stage :=
  match g with
  | .routing id => visit id [] (provider :: healthy.filter (fun p => p ≠ provider))
  | g => g

def permit (g : Stage) (allowed : Bool) : Stage :=
  match g with
  | .asking d => if allowed then .permitted d else d.leave .refused "CIRCUIT_OPEN"
  | g => g

def start (g : Stage) : Stage :=
  match g with
  | .permitted d => .calling d
  | g => g

def answer (policy : RetryPolicy) (g : Stage) (r : Except Exn ProviderPaymentResult) : Stage :=
  match g, r with
  | .calling d, .ok result => .returned d result
  | .calling d, .error (.provider error) => d.fail policy error
  | .calling d, .error _ => .abandoned d.id
  | g, _ => g

def abandon (g : Stage) : Stage :=
  match g with
  | .asking d => .abandoned d.id
  | .permitted d => .abandoned d.id
  | g => g

def store (g : Stage) : Stage :=
  match g with
  | .returned d _ => .saved d.id (d.close .returned)
  | .failed id visits => .saved id visits
  | .applying _ => .outside
  | g => g

def find (g : Stage) (p : Payment) : Stage :=
  match g with
  | .outside => .found p
  | g => g

/-- The payments a stage may save. -/
def saves (g : Stage) (p : Payment) : Prop :=
  match g with
  | .returned d result => p.id = d.id ∧ History (d.close .returned) p ∧ p.status = .succeeded ∧
      p.provider = some d.provider ∧ p.providerReference = some result.reference
  | .failed id visits => p.id = id ∧ History visits p ∧ p.status = .failed
  | .applying q => p.id = q.id ∧ p.attempts = q.attempts
  | _ => False

end Stage

section Protocol

variable (profile : Profile) (cfg : Config)

def ok (g : Stage) : Effect → Prop
  | .host (.sleep _) => ∃ d, g = .asking d ∧ d.errors ≠ []
  | .circuit (.allowRequest p) => ∃ d, g = .asking d ∧ p = d.provider
  | .semaphore (.acquire _ _) => ∃ d, g = .permitted d
  | .provider (.choose healthy) => (∃ id, g = .routing id) ∧ healthy.Sublist cfg.providers
  | .provider (.startPayment p id _ _ _) =>
    ∃ d, g = .permitted d ∧ p = d.provider ∧ id = d.id ∧ 0 < cfg.retryPolicy.maxAttempts
  | .provider (.finishPayment p id) => ∃ d, g = .calling d ∧ p = d.provider ∧ id = d.id
  | .store (.save p) => g.saves p
  | .store (.saveWithEvents p _) => g.saves p
  | .store (.reread p) => g = .found p
  | .coordinator _ => profile.coordinator = .memory
  | _ => True

def may : (e : Effect) → e.Reply → Prop
  | .host (.sleep _), .error x => x = .cancelled
  | .semaphore (.acquire _ _), .error x => x = .cancelled
  | .store (.save _), .error _ => False
  | .store (.saveWithEvents _ _), .error _ => False
  | .store (.append _), .error _ => False
  | .coordinator (.complete _ _ _), .error x => ∀ error, x ≠ .provider error
  | _, _ => True

def next (g : Stage) : (e : Effect) → e.Reply → Stage
  | .host .uuid4, id => g.draw id
  | .host (.sleep _), .error _ => g.abandon
  | .circuit (.allowRequest _), r => g.permit r.1
  | .semaphore (.acquire _ _), .error _ => g.abandon
  | .provider (.choose healthy), .ok provider => g.choose healthy provider
  | .provider (.startPayment _ _ _ _ _), _ => g.start
  | .provider (.finishPayment _ _), r => g.answer cfg.retryPolicy r
  | .store (.save _), _ => g.store
  | .store (.saveWithEvents _ _), _ => g.store
  | .store (.get _), .ok (some p) => g.find p
  | .store (.reread _), q => .applying q
  | _, _ => g

def protocol : Protocol Effect Effect.Reply Stage := ⟨ok profile cfg, fun _ => may, next cfg⟩

end Protocol

end PySwitch.Visits
