import PySwitch.Api
import PySwitch.Booking
import PySwitch.Columns

namespace PySwitch.Admission

open Async Scenario Booking Api

/-- The bounds that the requests admitted need not meet. -/
structure Within (data : PaymentInput) (trace : List ((e : Effect) × e.Reply)) : Prop where
  amount : data.amount ≤ 2147483647
  currency : data.currency.length ≤ 3
  idempotencyKey : data.idempotencyKey.length ≤ 255
  provider : ∀ x ∈ lastRecorded trace, x.1.length ≤ 50
  providerReference : ∀ x ∈ lastRecorded trace, x.2.length ≤ 255

/-- The payment for an admitted request fits its columns exactly within the bounds that nothing
checks, whatever the call is answered on its way to save it. -/
theorem admitted_persistable_iff {cfg : Config} (digest : ∀ text, (cfg.sha256 text).length = 64)
    {upper : String → String} {settings : Settings} {requestId : String} {limit : RateLimitDecision}
    {body : CreatePaymentBody} {idempotencyKey : Option String} {data : PaymentInput}
    (admitted : receive upper settings requestId limit body idempotencyKey = .ok data)
    {trace : List ((e : Effect) × e.Reply)} {e : Effect}
    {k : e.Reply → Coroutine Effect Effect.Reply (Except Exn Result)} {payment : Payment}
    (reached : (((Call.create data).run cfg).start {}).Leads trace (.perform e k))
    (saves : saved e = some payment) : Persistable payment ↔ Within data trace := by
  have checked := receive_checked admitted
  have shaped := saved_shaped reached saves
  have positive := checked.amount
  rw [persistable_iff, shaped.merchantId, shaped.amount, shaped.currency, shaped.paymentMethodType,
    shaped.idempotencyKey, shaped.requestFingerprint, shaped.provider, shaped.providerReference,
    shaped.refundedAmount, checked.paymentMethodType, requestFingerprint, digest]
  constructor
  · rintro ⟨-, amount, currency, -, key, -, provider, reference, -⟩
    exact ⟨amount.2, currency, key, fun x hx => provider _ (Option.mem_map_of_mem _ hx),
      fun x hx => reference _ (Option.mem_map_of_mem _ hx)⟩
  · intro within
    refine ⟨checked.merchantId.2, ⟨by omega, within.amount⟩, within.currency, by decide,
      within.idempotencyKey, Nat.le_refl 64, ?_, ?_, by decide⟩
    · intro x hx
      obtain ⟨y, hy, rfl⟩ := Option.mem_map.mp hx
      exact within.provider y hy
    · intro x hx
      obtain ⟨y, hy, rfl⟩ := Option.mem_map.mp hx
      exact within.providerReference y hy

section Instances

deriving instance DecidableEq for Call

def body (amount : ℤ) : CreatePaymentBody := ⟨"merchant", amount, "EUR", "card", "test_token"⟩

def input (amount : ℤ) : PaymentInput := ⟨"merchant", amount, "EUR", "card", "test_token", "key"⟩

def allowed : RateLimitDecision := ⟨true, 60, 59, 0⟩

/-- A service with one provider, and the digest of the one request it gets. -/
def single (digest : String) : Config :=
  { service ["mockstripe"] 1 with sha256 := fun _ => digest }

theorem single_digest {digest : String} (h : digest.length = 64) (text : List Char) :
    ((single digest).sha256 text).length = 64 := h

/-- A payment up to its save. -/
def charged (amount : ℤ) : List ServiceLabel :=
  create 0 0 (input amount) 1 ++ ask 0 0 ++ start 0 ++ returns 0 "mockstripe_1" ++
  recordSuccess 0 0 ++ (List.replicate 3 (event 0 0)).flatten

theorem small_persistable :
    ∃ (trace : List ((e : Effect) × e.Reply)) (payment : Payment),
      receive String.toUpper {} "request" allowed (body 100) (some "key") = .ok (input 100) ∧
      payment.amount = 100 ∧ (Persistable payment ↔ Within (input 100) trace) := by
  let cfg := single "5e5ac5460b34b931b3308e8d70cf306d3bb2f3e44890b9052b11ee9359110bec"
  have admitted : receive String.toUpper {} "request" allowed (body 100) (some "key") =
      .ok (input 100) := by decide +kernel
  have ends : ∃ s ∈ run (system cfg {}) (charged 100) (.empty (.initial fragile [])),
      ∃ T ∈ s.tasks 0, T.call = .create (input 100) ∧
      ∃ e ∈ T.code.head, ∃ payment ∈ saved e, payment.amount = 100 := by decide +kernel
  obtain ⟨s, hs, T, task, call, e, head, payment, saves, amount⟩ := ends
  obtain ⟨k, code⟩ := Coroutine.perform_of_head head
  have reached := run_leads _ hs task
  rw [call, code] at reached
  exact ⟨T.trace, payment, admitted, amount,
    admitted_persistable_iff (single_digest (by decide)) admitted reached saves⟩

/-- The provider is charged for an amount that no row can hold. -/
theorem large_unpersistable :
    receive String.toUpper {} "request" allowed (body 3000000000) (some "key") =
      .ok (input 3000000000) ∧
    ∃ s ∈ run (system (single "33dbe28f3223a1b6c826e3d761422ed011ccd3bc15506be038f5d0a1137b0f78") {})
        (charged 3000000000) (.empty (.initial fragile [])),
      .paymentEnded 0 "mockstripe" 0 (.ok { reference := "mockstripe_1" }) ∈ s.world.log ∧
      ∃ T ∈ s.tasks 0, ∃ e ∈ T.code.head, ∃ payment ∈ saved e, ¬Persistable payment := by
  have admitted : receive String.toUpper {} "request" allowed (body 3000000000) (some "key") =
      .ok (input 3000000000) := by decide +kernel
  have ends : ∃ s ∈
      run (system (single "33dbe28f3223a1b6c826e3d761422ed011ccd3bc15506be038f5d0a1137b0f78") {})
        (charged 3000000000) (.empty (.initial fragile [])),
      .paymentEnded 0 "mockstripe" 0 (.ok { reference := "mockstripe_1" }) ∈ s.world.log ∧
      ∃ T ∈ s.tasks 0, ∃ e ∈ T.code.head, ∃ payment ∈ saved e, payment.amount = 3000000000 := by
    decide +kernel
  refine ⟨admitted, ?_⟩
  obtain ⟨s, hs, ended, T, task, e, head, payment, saves, amount⟩ := ends
  refine ⟨s, hs, ended, T, task, e, head, payment, saves, fun persistable => ?_⟩
  have bound := ((persistable_iff payment).mp persistable).2.1.2
  rw [amount] at bound
  exact absurd bound (by decide)

end Instances

end PySwitch.Admission
