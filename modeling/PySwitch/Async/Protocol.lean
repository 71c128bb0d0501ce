import PySwitch.Async.Coroutine

namespace PySwitch.Async

/-- A protocol says what a coroutine may perform in each phase, which replies it can meet
there and which phase a reply leads to. -/
structure Protocol (ε : Type) (ρ : ε → Type) (γ : Type) where
  ok : γ → ε → Prop
  may : γ → (e : ε) → ρ e → Prop
  next : γ → (e : ε) → ρ e → γ

variable {ε : Type} {ρ : ε → Type} {σ χ α β γ : Type}

/-- Every path of the coroutine keeps to the protocol and ends in `Q`. -/
def Coroutine.Follows (P : Protocol ε ρ γ) (Q : α → γ → Prop) : Coroutine ε ρ α → γ → Prop
  | .done a, g => Q a g
  | .perform e k, g => P.ok g e ∧ ∀ r, P.may g e r → (k r).Follows P Q (P.next g e r)

namespace Coroutine.Follows

variable {P : Protocol ε ρ γ}

theorem bind_iff {Q : β → γ → Prop} (c : Coroutine ε ρ α) (f : α → Coroutine ε ρ β) (g : γ) :
    (c.bind f).Follows P Q g ↔ c.Follows P (fun a g => (f a).Follows P Q g) g := by
  induction c generalizing g with
  | done a => rfl
  | perform e k ih =>
    simp only [Coroutine.bind, Coroutine.Follows]
    exact and_congr_right fun _ => forall_congr' fun r => imp_congr_right fun _ => ih r _

theorem mono {Q R : α → γ → Prop} (h : ∀ a g, Q a g → R a g) {c : Coroutine ε ρ α} {g : γ}
    (hc : c.Follows P Q g) : c.Follows P R g := by
  induction c generalizing g with
  | done a => exact h a g hc
  | perform e k ih => exact ⟨hc.1, fun r hr => ih r (hc.2 r hr)⟩

/-- After a trace of replies that the protocol reckons with, a coroutine still keeps to it. -/
theorem leads {Q : α → γ → Prop} (free : ∀ g e r, P.may g e r) {c c' : Coroutine ε ρ α}
    {trace : List ((e : ε) × ρ e)} (h : c.Leads trace c') {g : γ} (follows : c.Follows P Q g) :
    c'.Follows P Q (trace.foldl (fun g ev => P.next g ev.1 ev.2) g) := by
  induction h generalizing g with
  | refl c => exact follows
  | cons rest ih => exact ih (follows.2 _ (free ..))

end Coroutine.Follows

/-- Weakest precondition of a program under a protocol. -/
def wp (P : Protocol ε ρ γ) (m : Program ε ρ σ χ α) (Q : Except χ α → σ → γ → Prop)
    (s : σ) (g : γ) : Prop :=
  (m s).Follows P (fun p g => Q p.1 p.2 g) g

/-- Go on with `K` after a value, end in `Q` with the exception otherwise. -/
def orRaise (Q : Except χ β → σ → γ → Prop) (K : α → σ → γ → Prop) :
    Except χ α → σ → γ → Prop
  | .ok a => K a
  | .error x => Q (.error x)

@[simp] theorem orRaise_ok (Q : Except χ β → σ → γ → Prop) (K : α → σ → γ → Prop) (a : α) :
    orRaise Q K (.ok a) = K a := rfl

@[simp] theorem orRaise_error (Q : Except χ β → σ → γ → Prop) (K : α → σ → γ → Prop) (x : χ) :
    orRaise Q K (.error x) = Q (.error x) := rfl

section Rules

variable (P : Protocol ε ρ γ) (s : σ) (g : γ)

@[simp] theorem wp_pure (a : α) (Q : Except χ α → σ → γ → Prop) :
    wp P (pure a : Program ε ρ σ χ α) Q s g = Q (.ok a) s g := rfl

@[simp] theorem wp_raise (x : χ) (Q : Except χ α → σ → γ → Prop) :
    wp P (Program.raise x : Program ε ρ σ χ α) Q s g = Q (.error x) s g := rfl

@[simp] theorem wp_bind (m : Program ε ρ σ χ α) (f : α → Program ε ρ σ χ β)
    (Q : Except χ β → σ → γ → Prop) :
    wp P (m >>= f) Q s g = wp P m (orRaise Q (fun a => wp P (f a) Q)) s g := by
  refine propext ((Coroutine.Follows.bind_iff _ _ _).trans ?_)
  constructor <;> refine Coroutine.Follows.mono ?_ <;> rintro ⟨_ | _, _⟩ _ h <;> exact h

@[simp] theorem wp_attempt (m : Program ε ρ σ χ α) (Q : Except χ (Except χ α) → σ → γ → Prop) :
    wp P (Program.attempt m) Q s g = wp P m (fun r s g => Q (.ok r) s g) s g :=
  propext (Coroutine.Follows.bind_iff _ _ _)

@[simp] theorem wp_ofExcept (r : Except χ α) (Q : Except χ α → σ → γ → Prop) :
    wp P (Program.ofExcept r : Program ε ρ σ χ α) Q s g = Q r s g := by
  cases r <;> rfl

@[simp] theorem wp_effect (e : ε) (Q : Except χ (ρ e) → σ → γ → Prop) :
    wp P (Program.effect e : Program ε ρ σ χ (ρ e)) Q s g =
      (P.ok g e ∧ ∀ r, P.may g e r → Q (.ok r) s (P.next g e r)) := rfl

@[simp] theorem wp_get (Q : Except χ σ → σ → γ → Prop) :
    wp P (Program.get : Program ε ρ σ χ σ) Q s g = Q (.ok s) s g := rfl

@[simp] theorem wp_modify (f : σ → σ) (Q : Except χ Unit → σ → γ → Prop) :
    wp P (Program.modify f : Program ε ρ σ χ Unit) Q s g = Q (.ok ()) (f s) g := rfl

@[simp] theorem wp_await (m : Program ε ρ σ χ (Except χ α)) (Q : Except χ α → σ → γ → Prop) :
    wp P (Program.await m) Q s g = wp P m (orRaise Q Q) s g := by
  have h : (fun r => wp P (Program.ofExcept r) Q) = Q := by
    funext r s g
    exact wp_ofExcept P s g r Q
  rw [Program.await, wp_bind, h]

@[simp] theorem wp_ite (c : Prop) [Decidable c] (m n : Program ε ρ σ χ α)
    (Q : Except χ α → σ → γ → Prop) :
    wp P (if c then m else n) Q s g = if c then wp P m Q s g else wp P n Q s g := by
  split <;> rfl

@[simp] theorem wp_onlyIf (c : Prop) [Decidable c] (m : Program ε ρ σ χ Unit)
    (Q : Except χ Unit → σ → γ → Prop) :
    wp P (Program.onlyIf c m) Q s g = if c then wp P m Q s g else Q (.ok ()) s g := by
  simp only [Program.onlyIf, wp_ite, wp_pure]

theorem wp_ensure (m : Program ε ρ σ χ α) (cleanup : Program ε ρ σ χ Unit)
    (Q : Except χ α → σ → γ → Prop) :
    wp P (Program.ensure m cleanup) Q s g ↔
      wp P m (fun r => wp P cleanup (orRaise Q (fun _ => Q r))) s g := by
  have h (r : Except χ α) : (fun _ : Unit => wp P (Program.ofExcept r) Q) = fun _ => Q r := by
    funext _ s g
    exact wp_ofExcept P s g r Q
  simp only [Program.ensure, wp_bind, wp_attempt, orRaise_ok, h]

end Rules

theorem wp_mono {P : Protocol ε ρ γ} {m : Program ε ρ σ χ α} {Q R : Except χ α → σ → γ → Prop}
    {s : σ} {g : γ} (hm : wp P m Q s g) (h : ∀ r s g, Q r s g → R r s g) : wp P m R s g :=
  Coroutine.Follows.mono (fun _ _ => h _ _ _) hm

theorem start_follows {P : Protocol ε ρ γ} {m : Program ε ρ σ χ α} {Q : Except χ α → γ → Prop}
    {s : σ} {g : γ} (hm : wp P m (fun r _ g => Q r g) s g) :
    (m.start s).Follows P Q g :=
  (Coroutine.Follows.bind_iff _ _ _).mpr hm

end PySwitch.Async
