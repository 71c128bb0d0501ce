import PySwitch.Async.EventLoop

namespace PySwitch.Async

variable {τ κ ε : Type} {ρ : ε → Type} {σ χ α ι η ω : Type}

variable {answer : (e : ε) → ω → Answer (ρ e) ω} {w w' : ω}

variable [DecidableEq τ] {S : System τ κ ε ρ α ι η ω} {t : τ} {A : Label τ κ ι η → Prop}
  {R : ((e : ε) × ρ e) → Prop}

end PySwitch.Async
