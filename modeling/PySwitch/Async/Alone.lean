import PySwitch.Async.EventLoop

namespace PySwitch.Async

variable {ε : Type} {ρ : ε → Type} {σ χ α β ω : Type}

/-- A coroutine that runs with nobody else around ends, or comes to an effect that makes it
wait. -/
def Coroutine.alone (answer : (e : ε) → ω → Answer (ρ e) ω) : Coroutine ε ρ α → ω → Option α × ω
  | .done a, w => (some a, w)
  | .perform e k, w =>
    match answer e w with
    | .reply r w' => (k r).alone answer w'
    | .wait w' => (none, w')
    | .refuse => (none, w)

namespace Program

variable (answer : (e : ε) → ω → Answer (ρ e) ω)

def alone (m : Program ε ρ σ χ α) (s : σ) (w : ω) : Option (Except χ α × σ) × ω :=
  (m s).alone answer w

/-- Go on with `f` after a value, stop with an exception or at a wait. -/
def andThen (f : α → σ → ω → Option (Except χ β × σ) × ω) :
    Option (Except χ α × σ) × ω → Option (Except χ β × σ) × ω
  | (some (.ok a, s), w) => f a s w
  | (some (.error x, s), w) => (some (.error x, s), w)
  | (none, w) => (none, w)

theorem coroutine_bind (c : Coroutine ε ρ α) (f : α → Coroutine ε ρ β) (w : ω) :
    (c.bind f).alone answer w = match c.alone answer w with
      | (some a, w') => (f a).alone answer w'
      | (none, w') => (none, w') := by
  induction c generalizing w with
  | done a => rfl
  | perform e k ih =>
    simp only [Coroutine.bind, Coroutine.alone]
    split
    · exact ih _ _
    · rfl
    · rfl

@[simp] theorem alone_pure (a : α) (s : σ) (w : ω) :
    alone answer (pure a : Program ε ρ σ χ α) s w = (some (.ok a, s), w) := rfl

@[simp] theorem alone_raise (x : χ) (s : σ) (w : ω) :
    alone answer (raise x : Program ε ρ σ χ α) s w = (some (.error x, s), w) := rfl

@[simp] theorem alone_ofExcept (r : Except χ α) (s : σ) (w : ω) :
    alone answer (ofExcept r : Program ε ρ σ χ α) s w = (some (r, s), w) := by
  cases r <;> rfl

@[simp] theorem alone_bind (m : Program ε ρ σ χ α) (f : α → Program ε ρ σ χ β) (s : σ) (w : ω) :
    alone answer (m >>= f) s w = andThen (fun a => alone answer (f a)) (alone answer m s w) := by
  refine (coroutine_bind answer _ _ w).trans ?_
  unfold alone
  obtain ⟨_ | ⟨_ | _, _⟩, _⟩ := (m s).alone answer w <;> rfl

@[simp] theorem alone_attempt (m : Program ε ρ σ χ α) (s : σ) (w : ω) :
    alone answer (attempt m) s w =
      ((alone answer m s w).1.map fun p => (.ok p.1, p.2), (alone answer m s w).2) := by
  refine (coroutine_bind answer _ _ w).trans ?_
  unfold alone
  obtain ⟨_ | ⟨_, _⟩, _⟩ := (m s).alone answer w <;> rfl

theorem alone_effect (e : ε) (s : σ) (w : ω) :
    alone answer (effect e : Program ε ρ σ χ (ρ e)) s w = match answer e w with
      | .reply r w' => (some (.ok r, s), w')
      | .wait w' => (none, w')
      | .refuse => (none, w) := by
  simp only [alone, effect, Coroutine.alone]

@[simp] theorem alone_await (m : Program ε ρ σ χ (Except χ α)) (s : σ) (w : ω) :
    alone answer (await m) s w =
      andThen (fun r s w => (some (r, s), w)) (alone answer m s w) := by
  have h : (fun r => alone answer (ofExcept r : Program ε ρ σ χ α)) =
      fun r s w => (some (r, s), w) := by
    funext r s w
    exact alone_ofExcept answer r s w
  rw [await, alone_bind, h]

@[simp] theorem alone_onlyIf (c : Prop) [Decidable c] (m : Program ε ρ σ χ Unit) (s : σ) (w : ω) :
    alone answer (onlyIf c m) s w =
      if c then alone answer m s w else (some (.ok (), s), w) := by
  unfold onlyIf
  split <;> rfl

end Program

end PySwitch.Async
