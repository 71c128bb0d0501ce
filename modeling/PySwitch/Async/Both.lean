import PySwitch.Async.Invariant

namespace PySwitch.Async

variable {τ κ ε : Type} {ρ : ε → Type} {α ι η ω γ δ : Type}

namespace Protocol

/-- Two protocols kept side by side. -/
def both (P : Protocol ε ρ γ) (R : Protocol ε ρ δ) : Protocol ε ρ (γ × δ) where
  ok g e := P.ok g.1 e ∧ R.ok g.2 e
  may g e r := P.may g.1 e r ∧ R.may g.2 e r
  next g e r := (P.next g.1 e r, R.next g.2 e r)

end Protocol

theorem Coroutine.Follows.both {P : Protocol ε ρ γ} {R : Protocol ε ρ δ} {A : α → γ → Prop}
    {B : α → δ → Prop} {c : Coroutine ε ρ α} {g : γ} {h : δ} (hc : c.Follows P A g)
    (hd : c.Follows R B h) : c.Follows (P.both R) (fun a p => A a p.1 ∧ B a p.2) (g, h) := by
  induction c generalizing g h with
  | done a => exact ⟨hc, hd⟩
  | perform e k ih => exact ⟨⟨hc.1, hd.1⟩, fun r hr => ih r (hc.2 r hr.1) (hd.2 r hr.2)⟩

def Status.fst (u : Status κ (γ × δ)) : Status κ γ := ⟨u.call, u.phase.1, u.ended⟩

/-- The statuses of the first of two disciplines. -/
def firsts (st : τ → Option (Status κ (γ × δ))) (t : τ) : Option (Status κ γ) :=
  (st t).map Status.fst

namespace Discipline

variable (D : Discipline κ ε ρ α γ) (E : Discipline κ ε ρ α δ)

def both : Discipline κ ε ρ α (γ × δ) where
  protocol c := (D.protocol c).both (E.protocol c)
  first c := (D.first c, E.first c)
  post c a g := D.post c a g.1 ∧ E.post c a g.2

theorem phase_both (T : Task κ ε ρ α) : (D.both E).phase T = (D.phase T, E.phase T) := by
  have folded (trace : List ((e : ε) × ρ e)) (g : γ) (h : δ) :
      trace.foldl (fun p ev => ((D.both E).protocol T.call).next p ev.1 ev.2) (g, h) =
        (trace.foldl (fun g ev => (D.protocol T.call).next g ev.1 ev.2) g,
          trace.foldl (fun h ev => (E.protocol T.call).next h ev.1 ev.2) h) := by
    induction trace generalizing g h with
    | nil => rfl
    | cons ev trace ih => exact ih _ _
  exact folded T.trace _ _

theorem firsts_statuses (s : State τ κ ε ρ α ω) :
    firsts ((D.both E).statuses s) = D.statuses s := by
  funext t
  cases task : s.tasks t with
  | none => simp [firsts, statuses, task]
  | some T => simp [firsts, statuses, task, status, Status.fst, phase_both]

end Discipline

theorem firsts_update [DecidableEq τ] (st : τ → Option (Status κ (γ × δ))) (t : τ)
    (u : Status κ (γ × δ)) :
    firsts (Function.update st t (some u)) = Function.update (firsts st) t (some u.fst) := by
  funext v
  by_cases hv : v = t
  · subst hv
    simp [firsts]
  · simp [firsts, hv]

theorem Goes.fst {D : Discipline κ ε ρ α γ} {E : Discipline κ ε ρ α δ} {t : τ} {c : κ} {g : γ}
    {h : δ} {b : Bool} {v : Option τ} (goes : Goes (D.both E) t c (g, h) b v) :
    Goes D t c g b v := by
  cases goes with
  | on => exact .on
  | ended post => exact .ended post.1

/-- What has to be shown of a second discipline, and of an invariant about both, where the first
is kept already. -/
structure Joins [DecidableEq τ] (S : System τ κ ε ρ α ι η ω)
    (C : State τ κ ε ρ α ω → Label τ κ ι η → Prop) (D : Discipline κ ε ρ α γ)
    (E : Discipline κ ε ρ α δ) (Base : ω → Option τ → (τ → Option (Status κ γ)) → Prop)
    (Inv : ω → Option τ → (τ → Option (Status κ (γ × δ))) → Prop) : Prop where
  follows : ∀ c, (S.program c).Follows (E.protocol c) (E.post c) (E.first c)
  call : ∀ {s : State τ κ ε ρ α ω} {t c b v}, C s (.call t c) →
    Inv s.world none ((D.both E).statuses s) → (D.both E).statuses s t = none →
    Goes (D.both E) t c (D.first c, E.first c) b v →
    Inv s.world v
      (Function.update ((D.both E).statuses s) t (some ⟨c, (D.first c, E.first c), b⟩))
  reply : ∀ {s : State τ κ ε ρ α ω} {l t c g h e r w}, C s l →
    Base s.world s.running (D.statuses s) → Inv s.world s.running ((D.both E).statuses s) →
    (D.both E).statuses s t = some ⟨c, (g, h), false⟩ → (D.protocol c).ok g e →
    (E.protocol c).ok h e → Delivered S s l t e (.reply r w) → (D.protocol c).may g e r →
    (E.protocol c).may h e r ∧ ∀ b v,
      Goes (D.both E) t c ((D.protocol c).next g e r, (E.protocol c).next h e r) b v →
      Base w v (Function.update (D.statuses s) t (some ⟨c, (D.protocol c).next g e r, b⟩)) →
      Inv w v (Function.update ((D.both E).statuses s) t
        (some ⟨c, ((D.protocol c).next g e r, (E.protocol c).next h e r), b⟩))
  wait : ∀ {s : State τ κ ε ρ α ω} {l t c g h e w}, C s l →
    Inv s.world s.running ((D.both E).statuses s) →
    (D.both E).statuses s t = some ⟨c, (g, h), false⟩ → (D.protocol c).ok g e →
    (E.protocol c).ok h e → Delivered S s l t e (.wait w) → Inv w none ((D.both E).statuses s)
  outside : ∀ {s : State τ κ ε ρ α ω} {a w}, C s (.outside a) →
    Inv s.world none ((D.both E).statuses s) → S.outside a s.world = some w →
    Inv w none ((D.both E).statuses s)

theorem Joins.maintains [DecidableEq τ] {S : System τ κ ε ρ α ι η ω}
    {B C : State τ κ ε ρ α ω → Label τ κ ι η → Prop} {D : Discipline κ ε ρ α γ}
    {E : Discipline κ ε ρ α δ} {Base : ω → Option τ → (τ → Option (Status κ γ)) → Prop}
    {Inv : ω → Option τ → (τ → Option (Status κ (γ × δ))) → Prop} (J : Joins S C D E Base Inv)
    (M : Maintains S B D Base) (weaker : ∀ s l, C s l → B s l) :
    Maintains S C (D.both E) fun w v st => Base w v (firsts st) ∧ Inv w v st where
  follows := fun c => (M.follows c).both (J.follows c)
  call := fun {s t c b v} meets inv new goes => by
    obtain ⟨base, inv⟩ := inv
    refine ⟨?_, J.call meets inv new goes⟩
    rw [firsts_update]
    rw [D.firsts_statuses E] at base ⊢
    refine M.call (weaker _ _ meets) base ?_ goes.fst
    rw [← D.firsts_statuses E, firsts, new, Option.map_none]
  reply := fun {s l t c g e r w} meets inv ht hok delivered => by
    obtain ⟨base, inv⟩ := inv
    rw [D.firsts_statuses E] at base
    have first : D.statuses s t = some ⟨c, g.1, false⟩ := by
      rw [← D.firsts_statuses E, firsts, ht, Option.map_some]
      rfl
    obtain ⟨may, kept⟩ := M.reply (weaker _ _ meets) base first hok.1 delivered
    obtain ⟨may', kept'⟩ := J.reply meets base inv ht hok.1 hok.2 delivered may
    refine ⟨⟨may, may'⟩, fun b v goes => ?_⟩
    have based := kept b v goes.fst
    refine ⟨?_, kept' b v goes based⟩
    rw [firsts_update, D.firsts_statuses E]
    exact based
  wait := fun {s l t c g e w} meets inv ht hok delivered => by
    obtain ⟨base, inv⟩ := inv
    rw [D.firsts_statuses E] at base ⊢
    have first : D.statuses s t = some ⟨c, g.1, false⟩ := by
      rw [← D.firsts_statuses E, firsts, ht, Option.map_some]
      rfl
    exact ⟨M.wait (weaker _ _ meets) base first hok.1 delivered,
      J.wait meets inv ht hok.1 hok.2 delivered⟩
  outside := fun meets inv moved => by
    obtain ⟨base, inv⟩ := inv
    rw [D.firsts_statuses E] at base ⊢
    exact ⟨M.outside (weaker _ _ meets) base moved, J.outside meets inv moved⟩

end PySwitch.Async
