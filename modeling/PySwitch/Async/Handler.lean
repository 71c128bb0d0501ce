import PySwitch.Async.Protocol

namespace PySwitch.Async

variable {ε ε' : Type} {ρ : ε → Type} {ρ' : ε' → Type} {α β γ : Type}

/-- Carry out each effect by a coroutine over other effects. -/
def Coroutine.handle (h : (e : ε) → Coroutine ε' ρ' (ρ e)) : Coroutine ε ρ α → Coroutine ε' ρ' α
  | .done a => .done a
  | .perform e k => (h e).bind fun r => (k r).handle h

theorem Coroutine.handle_bind (h : (e : ε) → Coroutine ε' ρ' (ρ e)) (c : Coroutine ε ρ α)
    (f : α → Coroutine ε ρ β) :
    (c.bind f).handle h = (c.handle h).bind fun a => (f a).handle h := by
  induction c with
  | done a => rfl
  | perform e k ih =>
    simp only [Coroutine.bind, Coroutine.handle, ih]
    generalize h e = d
    induction d with
    | done a => rfl
    | perform e' k' ih' => simp only [Coroutine.bind, ih']

/-- A coroutine keeps to a protocol in other effects when each of its own effects, carried out
there, leads from phase to phase as its own protocol says. -/
theorem Coroutine.Follows.handle {P : Protocol ε ρ γ} {P' : Protocol ε' ρ' γ}
    {h : (e : ε) → Coroutine ε' ρ' (ρ e)} {Q : α → γ → Prop}
    (carries : ∀ g e, P.ok g e →
      (h e).Follows P' (fun r g' => P.may g e r ∧ g' = P.next g e r) g)
    {c : Coroutine ε ρ α} {g : γ} (hc : c.Follows P Q g) : (c.handle h).Follows P' Q g := by
  induction c generalizing g with
  | done a => exact hc
  | perform e k ih =>
    refine (Follows.bind_iff _ _ _).mpr ((carries g e hc.1).mono ?_)
    rintro r g' ⟨may, rfl⟩
    exact ih r (hc.2 r may)

end PySwitch.Async
