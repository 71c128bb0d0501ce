import PySwitch.Async.Protocol

namespace PySwitch.Async

variable {ε : Type} {ρ : ε → Type} {σ χ α β γ : Type}

/-- The protocol that only says which effects may be performed. -/
def only (A : ε → Prop) : Protocol ε ρ Unit :=
  ⟨fun _ e => A e, fun _ _ _ => True, fun _ _ _ => ()⟩

/-- A program performs effects of `A` only, and leaves the local variables as they were. -/
def Uses (A : ε → Prop) (m : Program ε ρ σ χ α) : Prop :=
  ∀ s, wp (only A) m (fun _ s' _ => s' = s) s ()

section Rules

variable {A B : ε → Prop}

theorem uses_mono (hAB : ∀ e, A e → B e) {m : Program ε ρ σ χ α} (h : Uses A m) : Uses B m := by
  intro s
  have hs := h s
  unfold wp at hs ⊢
  generalize m s = c at hs
  induction c with
  | done a => exact hs
  | perform e k ih => exact ⟨hAB e hs.1, fun r hr => ih r (hs.2 r hr)⟩

theorem uses_and {m : Program ε ρ σ χ α} (hA : Uses A m) (hB : Uses B m) :
    Uses (fun e => A e ∧ B e) m := by
  intro s
  have ha := hA s
  have hb := hB s
  unfold wp at ha hb ⊢
  generalize m s = c at ha hb
  induction c with
  | done a => exact ha
  | perform e k ih => exact ⟨⟨ha.1, hb.1⟩, fun r hr => ih r (ha.2 r hr) (hb.2 r hr)⟩

theorem uses_pure (a : α) : Uses A (pure a : Program ε ρ σ χ α) := fun _ => rfl

theorem uses_raise (x : χ) : Uses A (Program.raise x : Program ε ρ σ χ α) := fun _ => rfl

theorem uses_effect {e : ε} (h : A e) : Uses A (Program.effect e : Program ε ρ σ χ (ρ e)) :=
  fun _ => ⟨h, fun _ _ => rfl⟩

theorem uses_bind {m : Program ε ρ σ χ α} {f : α → Program ε ρ σ χ β} (hm : Uses A m)
    (hf : ∀ a, Uses A (f a)) : Uses A (m >>= f) := by
  intro s
  rw [wp_bind]
  refine wp_mono (hm s) ?_
  rintro (x | a) s' ⟨⟩ rfl
  · rfl
  · exact hf a s'

theorem uses_ofExcept (r : Except χ α) : Uses A (Program.ofExcept r : Program ε ρ σ χ α) := by
  cases r with
  | ok a => exact uses_pure a
  | error x => exact uses_raise x

theorem uses_await {m : Program ε ρ σ χ (Except χ α)} (hm : Uses A m) :
    Uses A (Program.await m) :=
  uses_bind hm uses_ofExcept

theorem uses_attempt {m : Program ε ρ σ χ α} (hm : Uses A m) : Uses A (Program.attempt m) := by
  intro s
  rw [wp_attempt]
  exact wp_mono (hm s) fun _ _ _ h => h

theorem uses_ite {c : Prop} [Decidable c] {m n : Program ε ρ σ χ α} (hm : Uses A m)
    (hn : Uses A n) : Uses A (if c then m else n) := by
  split
  · exact hm
  · exact hn

theorem uses_onlyIf {c : Prop} [Decidable c] {m : Program ε ρ σ χ Unit} (hm : Uses A m) :
    Uses A (Program.onlyIf c m) := uses_ite hm (uses_pure ())

end Rules

/-- A program whose effects keep the phase within `J` ends in such a phase. -/
theorem wp_of_uses {P : Protocol ε ρ γ} {A : ε → Prop} {J : γ → Prop} {m : Program ε ρ σ χ α}
    {Q : Except χ α → σ → γ → Prop} {s : σ} {g : γ} (h : Uses A m)
    (neutral : ∀ g e, J g → A e → P.ok g e ∧ ∀ r, P.may g e r → J (P.next g e r))
    (first : J g) (post : ∀ r g, J g → Q r s g) : wp P m Q s g := by
  have hs := h s
  unfold wp at hs ⊢
  generalize m s = c at hs
  induction c generalizing g with
  | done a =>
    have ha : a.2 = s := hs
    show Q a.1 a.2 g
    rw [ha]
    exact post a.1 g first
  | perform e k ih =>
    exact ⟨(neutral g e first hs.1).1, fun r hr =>
      ih r ((neutral g e first hs.1).2 r hr) (hs.2 r trivial)⟩

/-- A program that ends in `E` on every path with replies in `R`. -/
def Ends (R : (e : ε) → ρ e → Prop) (E : Except χ α → Prop) (m : Program ε ρ σ χ α) : Prop :=
  ∀ s, wp ⟨fun _ _ => True, fun _ => R, fun _ _ _ => ()⟩ m (fun r _ _ => E r) s ()

theorem wp_of_uses_ends {P : Protocol ε ρ γ} {A : ε → Prop} {R : (e : ε) → ρ e → Prop}
    {E : Except χ α → Prop} {J : γ → Prop} {m : Program ε ρ σ χ α}
    {Q : Except χ α → σ → γ → Prop} {s : σ} {g : γ} (h : Uses A m) (ends : Ends R E m)
    (neutral : ∀ g e, J g → A e →
      P.ok g e ∧ ∀ r, P.may g e r → R e r ∧ J (P.next g e r))
    (first : J g) (post : ∀ r g, E r → J g → Q r s g) : wp P m Q s g := by
  have hs := h s
  have he := ends s
  unfold wp at hs he ⊢
  generalize m s = c at hs he
  induction c generalizing g with
  | done a =>
    have ha : a.2 = s := hs
    show Q a.1 a.2 g
    rw [ha]
    exact post a.1 g he first
  | perform e k ih =>
    obtain ⟨hok, hr⟩ := neutral g e first hs.1
    exact ⟨hok, fun r hm => ih r (hr r hm).2 (hs.2 r trivial) (he.2 r (hr r hm).1)⟩

/-- A program that keeps an invariant of local variables and phase, however it ends. -/
def Keeps (P : Protocol ε ρ γ) (I : σ → γ → Prop) (m : Program ε ρ σ χ α) : Prop :=
  ∀ s g, I s g → wp P m (fun _ s' g' => I s' g') s g

section Keeps

variable {P : Protocol ε ρ γ} {I : σ → γ → Prop}

theorem keeps_of_uses {A : ε → Prop} {m : Program ε ρ σ χ α} (h : Uses A m)
    (neutral : ∀ s g e, I s g → A e → P.ok g e ∧ ∀ r, P.may g e r → I s (P.next g e r)) :
    Keeps P I m :=
  fun s _ hI => wp_of_uses (J := I s) h (neutral s) hI fun _ _ h => h

/-- What every reply keeps, every program keeps. -/
theorem keeps_of_replies {J : γ → Prop} (replies : ∀ g e, J g →
    P.ok g e ∧ ∀ r, P.may g e r → J (P.next g e r)) (m : Program ε ρ σ χ α) :
    Keeps P (fun _ g => J g) m := by
  intro s g hJ
  unfold wp
  generalize m s = c
  induction c generalizing g with
  | done a => exact hJ
  | perform e k ih => exact ⟨(replies g e hJ).1, fun r hr => ih r _ ((replies g e hJ).2 r hr)⟩

theorem keeps_pure (a : α) : Keeps P I (pure a : Program ε ρ σ χ α) := fun _ _ h => h

theorem keeps_raise (x : χ) : Keeps P I (Program.raise x : Program ε ρ σ χ α) := fun _ _ h => h

theorem keeps_get : Keeps P I (Program.get : Program ε ρ σ χ σ) := fun _ _ h => h

theorem keeps_modify {f : σ → σ} (hf : ∀ s g, I s g → I (f s) g) :
    Keeps P I (Program.modify f : Program ε ρ σ χ Unit) := hf

theorem keeps_bind {m : Program ε ρ σ χ α} {f : α → Program ε ρ σ χ β} (hm : Keeps P I m)
    (hf : ∀ a, Keeps P I (f a)) : Keeps P I (m >>= f) := by
  intro s g hI
  rw [wp_bind]
  refine wp_mono (hm s g hI) ?_
  rintro (x | a) s' g' hI'
  · exact hI'
  · exact hf a s' g' hI'

/-- A program that keeps an invariant can be passed over. -/
theorem wp_through {m : Program ε ρ σ χ α} {f : α → Program ε ρ σ χ β}
    {Q : Except χ β → σ → γ → Prop} {s : σ} {g : γ} (hm : Keeps P I m) (first : I s g)
    (raised : ∀ x s' g', I s' g' → Q (.error x) s' g')
    (hf : ∀ a s' g', I s' g' → wp P (f a) Q s' g') : wp P (m >>= f) Q s g := by
  rw [wp_bind]
  apply wp_mono (hm s g first)
  intro r s' g' h
  cases r with
  | ok a => exact hf a s' g' h
  | error x => exact raised x s' g' h

theorem keeps_attempt {m : Program ε ρ σ χ α} (hm : Keeps P I m) :
    Keeps P I (Program.attempt m) := by
  intro s g hI
  rw [wp_attempt]
  exact hm s g hI

theorem keeps_ofExcept (r : Except χ α) : Keeps P I (Program.ofExcept r : Program ε ρ σ χ α) := by
  cases r with
  | ok a => exact keeps_pure a
  | error x => exact keeps_raise x

theorem keeps_await {m : Program ε ρ σ χ (Except χ α)} (hm : Keeps P I m) :
    Keeps P I (Program.await m) := keeps_bind hm keeps_ofExcept

theorem keeps_ite {c : Prop} [Decidable c] {m n : Program ε ρ σ χ α} (hm : Keeps P I m)
    (hn : Keeps P I n) : Keeps P I (if c then m else n) := by
  split
  · exact hm
  · exact hn

theorem keeps_onlyIf {c : Prop} [Decidable c] {m : Program ε ρ σ χ Unit} (hm : Keeps P I m) :
    Keeps P I (Program.onlyIf c m) := keeps_ite hm (keeps_pure ())

theorem keeps_ensure {m : Program ε ρ σ χ α} {cleanup : Program ε ρ σ χ Unit}
    (hm : Keeps P I m) (hc : Keeps P I cleanup) : Keeps P I (Program.ensure m cleanup) :=
  keeps_bind (keeps_attempt hm) fun r => keeps_bind hc fun _ => keeps_ofExcept r

end Keeps

end PySwitch.Async
