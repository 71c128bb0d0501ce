import PySwitch.Async.Footprint

namespace PySwitch.Async

open Program

variable {ε : Type} {ρ : ε → Type} {σ χ α β γ : Type}

/-- A program that keeps an invariant and raises nothing. -/
def Succeeds (P : Protocol ε ρ γ) (J : σ → γ → Prop) (m : Program ε ρ σ χ α) : Prop :=
  ∀ s g, J s g → wp P m (fun r s' g' => (∃ a, r = .ok a) ∧ J s' g') s g

/-- A program that leads from `I` to `J` when it returns and stays in `I` when it raises. -/
def Turns (P : Protocol ε ρ γ) (I J : σ → γ → Prop) (m : Program ε ρ σ χ α) : Prop :=
  ∀ s g, I s g → wp P m (fun r s' g' => match r with
    | .ok _ => J s' g'
    | .error _ => I s' g') s g

variable {P : Protocol ε ρ γ} {I J : σ → γ → Prop}

section Succeeds

theorem succeeds_pure (a : α) : Succeeds P J (pure a : Program ε ρ σ χ α) :=
  fun _ _ h => ⟨⟨a, rfl⟩, h⟩

theorem succeeds_modify {f : σ → σ} (hf : ∀ s g, J s g → J (f s) g) :
    Succeeds P J (modify f : Program ε ρ σ χ Unit) :=
  fun s g h => ⟨⟨(), rfl⟩, hf s g h⟩

theorem succeeds_effect {e : ε}
    (h : ∀ s g, J s g → P.ok g e ∧ ∀ r, P.may g e r → J s (P.next g e r)) :
    Succeeds P J (effect e : Program ε ρ σ χ (ρ e)) := by
  intro s g hJ
  rw [wp_effect]
  exact ⟨(h s g hJ).1, fun r hr => ⟨⟨r, rfl⟩, (h s g hJ).2 r hr⟩⟩

theorem succeeds_bind {m : Program ε ρ σ χ α} {f : α → Program ε ρ σ χ β}
    (hm : Succeeds P J m) (hf : ∀ a, Succeeds P J (f a)) : Succeeds P J (m >>= f) := by
  intro s g hJ
  rw [wp_bind]
  apply wp_mono (hm s g hJ)
  rintro _ s' g' ⟨⟨a, rfl⟩, hJ'⟩
  exact hf a s' g' hJ'

/-- The reply to an effect that cannot fail in `J` carries no exception. -/
theorem succeeds_await {m : Program ε ρ σ χ (Except χ α)}
    (h : ∀ s g, J s g → wp P m (fun r s' g' => (∃ a, r = .ok (.ok a)) ∧ J s' g') s g) :
    Succeeds P J (await m) := by
  intro s g hJ
  rw [wp_await]
  apply wp_mono (h s g hJ)
  rintro _ s' g' ⟨⟨a, rfl⟩, hJ'⟩
  exact ⟨⟨a, rfl⟩, hJ'⟩

theorem succeeds_onlyIf {c : Prop} [Decidable c] {m : Program ε ρ σ χ Unit}
    (hm : Succeeds P J m) : Succeeds P J (onlyIf c m) := by
  unfold onlyIf
  split
  · exact hm
  · exact succeeds_pure ()

theorem Succeeds.keeps {m : Program ε ρ σ χ α} (h : Succeeds P J m) : Keeps P J m :=
  fun s g hJ => wp_mono (h s g hJ) fun _ _ _ hr => hr.2

end Succeeds

section Turns

theorem turns_raise (x : χ) : Turns P I J (raise x : Program ε ρ σ χ α) := fun _ _ h => h

theorem turns_bind {m : Program ε ρ σ χ α} {f : α → Program ε ρ σ χ β} (hm : Keeps P I m)
    (hf : ∀ a, Turns P I J (f a)) : Turns P I J (m >>= f) := by
  intro s g hI
  rw [wp_bind]
  apply wp_mono (hm s g hI)
  intro r s' g' hI'
  cases r with
  | ok a => exact hf a s' g' hI'
  | error x => exact hI'

theorem turns_try {m : Program ε ρ σ χ α} {f : Except χ α → Program ε ρ σ χ β}
    (hm : Turns P I J m) (hok : ∀ a, Succeeds P J (f (.ok a)))
    (herr : ∀ x, Turns P I J (f (.error x))) : Turns P I J (attempt m >>= f) := by
  intro s g hI
  rw [wp_bind, wp_attempt]
  apply wp_mono (hm s g hI)
  intro r s' g' h
  cases r with
  | ok a =>
    rw [orRaise_ok]
    apply wp_mono (hok a s' g' h)
    rintro _ s'' g'' ⟨⟨b, rfl⟩, hJ⟩
    exact hJ
  | error x => exact herr x s' g' h

theorem turns_ensure {m : Program ε ρ σ χ α} {cleanup : Program ε ρ σ χ Unit}
    (hm : Turns P I J m) (hI : Keeps P I cleanup) (hJ : Succeeds P J cleanup) :
    Turns P I J (ensure m cleanup) :=
  turns_try hm (fun a => succeeds_bind hJ fun _ => succeeds_pure a) fun x =>
    turns_bind hI fun _ => turns_raise x

theorem turns_await {m : Program ε ρ σ χ (Except χ α)}
    (h : ∀ s g, I s g → wp P m (fun r s' g' => match r with
      | .ok (.ok _) => J s' g'
      | _ => I s' g') s g) : Turns P I J (await m) := by
  intro s g hI
  rw [wp_await]
  apply wp_mono (h s g hI)
  intro r s' g' hr
  cases r with
  | error x => exact hr
  | ok answer => cases answer <;> exact hr

theorem turns_ite {c : Prop} [Decidable c] {m n : Program ε ρ σ χ α} (hm : Turns P I J m)
    (hn : Turns P I J n) : Turns P I J (if c then m else n) := by
  split
  · exact hm
  · exact hn

end Turns

end PySwitch.Async
