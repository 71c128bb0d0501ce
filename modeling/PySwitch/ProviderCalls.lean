import PySwitch.Answers

namespace PySwitch

open Async

def Happening.ofPayment : Happening → Bool
  | .paymentStarted _ _ _ => true
  | .paymentEnded _ _ _ _ => true
  | _ => false

theorem Happening.not_ofPayment_of_ofCircuit {x : Happening} (h : x.ofCircuit = true) :
    x.ofPayment = false := by
  cases x <;> first | rfl | cases h

/-- The payment calls made at providers so far, and how they ended. -/
def World.calls (w : World) : List Happening := w.log.filter Happening.ofPayment

theorem World.mem_calls {w : World} {x : Happening} (h : x.ofPayment = true) :
    x ∈ w.calls ↔ x ∈ w.log := by
  simp [calls, h]

theorem World.calls_note_other (w : World) {x : Happening} (h : x.ofPayment = false) :
    (w.note x).calls = w.calls := by
  simp [calls, World.log, World.note, h]

theorem World.calls_note (w : World) {x : Happening} (h : x.ofPayment = true) :
    (w.note x).calls = x :: w.calls := by
  simp [calls, World.log, World.note, h]

def Effect.charging : Effect → Prop
  | .provider (.startPayment _ _ _ _ _) => True
  | .provider (.finishPayment _ _) => True
  | _ => False

/-- What the reply to an effect of task `t` adds to the calls. -/
inductive Calls (t : Tid) (before : List Happening) : (e : Effect) → e.Reply →
    List Happening → Prop
  | started {p : Provider} {paymentId : Uuid} {amount : ℤ} {currency token : String} {r : Unit} :
    Calls t before (.provider (.startPayment p paymentId amount currency token)) r
      (.paymentStarted t p paymentId :: before)
  | ended {p : Provider} {paymentId : Uuid} {r : Except Exn ProviderPaymentResult} :
    Calls t before (.provider (.finishPayment p paymentId)) r
      (.paymentEnded t p paymentId r :: before)
  | other {e : Effect} {r : e.Reply} (he : ¬ e.charging) : Calls t before e r before

theorem Effect.Touches.calls {e : Effect} {w w' : World} (h : e.Touches w w')
    (he : ¬ e.charging) : w'.calls = w.calls := by
  cases e with
  | circuit e =>
    obtain ⟨_, new, hn, rfl⟩ := h
    have none_paid : new.filter Happening.ofPayment = [] := by
      rw [List.filter_eq_nil_iff]
      intro x hx
      simp [Happening.not_ofPayment_of_ofCircuit (hn x hx)]
    simp [World.calls, World.log, none_paid]
  | host e => obtain rfl | ⟨-, rfl⟩ := h <;> rfl
  | stats e => obtain ⟨_, _, rfl⟩ := h; rfl
  | provider e =>
    obtain rfl | ⟨x, hx, rfl⟩ := h
    · rfl
    · cases hx with
      | started => exact absurd trivial he
      | ended => exact absurd trivial he
      | refunded => exact w.calls_note_other rfl
  | _ => obtain ⟨_, rfl⟩ := h; rfl

section Delivered

variable {cfg : Config} {profile : Profile} {s : ServiceState} {l : ServiceLabel} {t : Tid}
  {e : Effect} {w : World}

theorem reply_calls {r : e.Reply} (h : Delivered (system cfg profile) s l t e (.reply r w)) :
    Calls t s.world.calls e r w.calls := by
  have other (he : ¬ e.charging) : Calls t s.world.calls e r w.calls := by
    rw [(reply_touches h).calls he]
    exact .other he
  cases e with
  | provider e =>
    cases e with
    | startPayment p paymentId amount currency token =>
      obtain rfl := startPayment_reply h
      rw [s.world.calls_note rfl]
      exact .started
    | finishPayment p paymentId =>
      obtain ⟨-, -, rfl⟩ := finishPayment_reply h
      rw [s.world.calls_note rfl]
      exact .ended
    | _ => exact other id
  | _ => exact other id

theorem wait_calls (h : Delivered (system cfg profile) s l t e (.wait w)) :
    w.calls = s.world.calls := by
  cases e with
  | provider e => rw [provider_wait h]
  | _ => exact (wait_touches h).calls id

theorem outside_calls {a : Outside} {w w' : World} (h : a.apply w = some w') :
    w'.calls = w.calls := by
  cases a with
  | setProviderConcurrency provider limit =>
    cases h
    rfl
  | tick elapsed =>
    obtain ⟨r, -, rfl⟩ := Option.map_eq_some_iff.mp h
    rfl

end Delivered

end PySwitch
