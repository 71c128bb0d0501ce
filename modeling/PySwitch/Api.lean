import PySwitch.Domain
import PySwitch.RateLimit

namespace PySwitch

structure Settings where
  supportedCurrencies : List String := ["INR", "USD", "EUR"]

/-- The fields of a request to create a payment, as they are sent. -/
structure CreatePaymentBody where
  merchantId : String
  amount : ℤ
  currency : String
  type : String
  token : String

structure PaymentMethod where
  type : String
  token : String
  token_length : 1 ≤ token.length

/-- A request that has been validated. `upper` is the `upper` of strings. -/
structure CreatePaymentRequest (upper : String → String) where
  merchantId : String
  amount : ℤ
  currency : String
  paymentMethod : PaymentMethod
  merchantId_length : 1 ≤ merchantId.length ∧ merchantId.length ≤ 100
  amount_pos : 0 < amount
  currency_upper : ∃ value, value.length = 3 ∧ currency = upper value

structure ErrorResponse where
  statusCode : ℕ
  code : String
  message : String
  requestId : String
  headers : List (String × String) := []
  deriving DecidableEq, Repr

/-- What the handler of a `RequestValidationError` answers. -/
def validationError (requestId : String) : ErrorResponse :=
  ⟨422, "VALIDATION_ERROR", "Request validation failed", requestId, []⟩

def CreatePaymentRequest.validate (upper : String → String) (requestId : String)
    (body : CreatePaymentBody) : Except ErrorResponse (CreatePaymentRequest upper) :=
  if h : (1 ≤ body.merchantId.length ∧ body.merchantId.length ≤ 100) ∧ 0 < body.amount ∧
      body.currency.length = 3 ∧ 1 ≤ body.token.length then
    .ok {
      merchantId := body.merchantId
      amount := body.amount
      currency := upper body.currency
      paymentMethod := ⟨body.type, body.token, h.2.2.2⟩
      merchantId_length := h.1
      amount_pos := h.2.1
      currency_upper := ⟨body.currency, h.2.2.1, rfl⟩ }
  else .error (validationError requestId)

variable {upper : String → String}

namespace Api

def rateHeaders (limit : RateLimitDecision) : List (String × String) :=
  [("X-RateLimit-Limit", toString limit.limit), ("X-RateLimit-Remaining", toString limit.remaining)]

/-- The checks of the endpoint, up to the call of the service. -/
def createPayment (settings : Settings) (requestId : String) (limit : RateLimitDecision)
    (payload : CreatePaymentRequest upper) (idempotencyKey : Option String) :
    Except ErrorResponse PaymentInput :=
  let headers := rateHeaders limit
  if limit.allowed = false then
    .error ⟨429, "RATE_LIMITED", "Merchant rate limit exceeded", requestId,
      headers ++ [("Retry-After", toString limit.retryAfterSeconds)]⟩
  else match idempotencyKey with
    | none => .error ⟨400, "VALIDATION_ERROR", "Idempotency-Key header is required", requestId, headers⟩
    | some idempotencyKey =>
      if idempotencyKey = "" then
        .error ⟨400, "VALIDATION_ERROR", "Idempotency-Key header is required", requestId, headers⟩
      else if payload.currency ∉ settings.supportedCurrencies then
        .error ⟨422, "VALIDATION_ERROR", "Unsupported currency", requestId, headers⟩
      else if payload.paymentMethod.type ≠ "card" ∨
          ¬"test_".toList <+: payload.paymentMethod.token.toList then
        .error ⟨422, "VALIDATION_ERROR", "A synthetic payment token is required", requestId, headers⟩
      else
        .ok ⟨payload.merchantId, payload.amount, payload.currency, payload.paymentMethod.type,
          payload.paymentMethod.token, idempotencyKey⟩

/-- What is passed to the service for a request, or the error it is answered with. -/
def receive (upper : String → String) (settings : Settings) (requestId : String)
    (limit : RateLimitDecision) (body : CreatePaymentBody) (idempotencyKey : Option String) :
    Except ErrorResponse PaymentInput := do
  let payload ← CreatePaymentRequest.validate upper requestId body
  createPayment settings requestId limit payload idempotencyKey

/-- What the endpoint has checked of an input it passes on. -/
structure Checked (settings : Settings) (data : PaymentInput) : Prop where
  merchantId : 1 ≤ data.merchantId.length ∧ data.merchantId.length ≤ 100
  amount : 0 < data.amount
  currency : data.currency ∈ settings.supportedCurrencies
  paymentMethodType : data.paymentMethodType = "card"
  token : "test_".toList <+: data.token.toList
  idempotencyKey : data.idempotencyKey ≠ ""

theorem createPayment_checked {settings : Settings} {requestId : String} {limit : RateLimitDecision}
    {payload : CreatePaymentRequest upper} {key : Option String} {data : PaymentInput}
    (h : createPayment settings requestId limit payload key = .ok data) : Checked settings data := by
  unfold createPayment at h
  dsimp only at h
  split at h
  · cases h
  · cases key with
    | none => cases h
    | some key =>
      dsimp only at h
      split at h
      · cases h
      · rename_i some_key
        split at h
        · cases h
        · rename_i supported
          split at h
          · cases h
          · rename_i synthetic
            rw [not_or, not_not, not_not] at synthetic
            cases h
            exact ⟨payload.merchantId_length, payload.amount_pos, not_not.mp supported,
              synthetic.1, synthetic.2, some_key⟩

theorem receive_checked {settings : Settings} {requestId : String} {limit : RateLimitDecision}
    {body : CreatePaymentBody} {key : Option String} {data : PaymentInput}
    (h : receive upper settings requestId limit body key = .ok data) : Checked settings data := by
  unfold receive at h
  cases validated : CreatePaymentRequest.validate upper requestId body with
  | error e =>
    rw [validated] at h
    cases h
  | ok payload =>
    rw [validated] at h
    exact createPayment_checked h

end Api

end PySwitch
