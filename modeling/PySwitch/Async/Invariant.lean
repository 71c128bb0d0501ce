import PySwitch.Async.EventLoop

namespace PySwitch.Async

variable {τ κ ε : Type} {ρ : ε → Type} {α ι η ω γ : Type}

/-- A protocol for the tasks of each call, with its first phase and what holds at the end. -/
structure Discipline (κ ε : Type) (ρ : ε → Type) (α γ : Type) where
  protocol : κ → Protocol ε ρ γ
  first : κ → γ
  post : κ → α → γ → Prop

/-- How far a task has come. -/
structure Status (κ γ : Type) where
  call : κ
  phase : γ
  ended : Bool

namespace Discipline

variable (D : Discipline κ ε ρ α γ)

/-- The phase a task has reached is read off the replies it was given. -/
def phase (T : Task κ ε ρ α) : γ :=
  T.trace.foldl (fun g ev => (D.protocol T.call).next g ev.1 ev.2) (D.first T.call)

def status (T : Task κ ε ρ α) : Status κ γ := ⟨T.call, D.phase T, T.code.isDone⟩

def statuses (s : State τ κ ε ρ α ω) (t : τ) : Option (Status κ γ) := (s.tasks t).map D.status

/-- The code that remains of every task keeps to the protocol of its call. -/
def Kept (s : State τ κ ε ρ α ω) : Prop :=
  ∀ t T, s.tasks t = some T →
    T.code.Follows (D.protocol T.call) (D.post T.call) (D.phase T)

theorem Kept.ended {D : Discipline κ ε ρ α γ} {s : State τ κ ε ρ α ω} (kept : D.Kept s) {t : τ}
    {T : Task κ ε ρ α} (task : s.tasks t = some T) (done : T.code.isDone = true) :
    ∃ a, D.post T.call a (D.phase T) := by
  have follows := kept t T task
  obtain ⟨c, code, trace⟩ := T
  cases code with
  | done a => exact ⟨a, follows⟩
  | perform e k => cases done

theorem phase_reply (T : Task κ ε ρ α) (c : Coroutine ε ρ α) (e : ε) (r : ρ e) :
    D.phase ⟨T.call, c, T.trace ++ [⟨e, r⟩]⟩ = (D.protocol T.call).next (D.phase T) e r := by
  simp only [phase, List.foldl_append, List.foldl_cons, List.foldl_nil]

theorem statuses_some {s : State τ κ ε ρ α ω} {t : τ} {u : Status κ γ}
    (h : D.statuses s t = some u) : ∃ T, s.tasks t = some T ∧ D.status T = u :=
  Option.map_eq_some_iff.mp h

theorem statuses_of_task {s : State τ κ ε ρ α ω} {t : τ} {T : Task κ ε ρ α}
    (h : s.tasks t = some T) : D.statuses s t = some (D.status T) := by
  simp only [statuses, h, Option.map_some]

theorem statuses_idle {s : State τ κ ε ρ α ω} (h : s.Idle) {t : τ} {u : Status κ γ}
    (hu : D.statuses s t = some u) : u.ended = true := by
  obtain ⟨T, task, rfl⟩ := D.statuses_some hu
  exact h t T task

variable [DecidableEq τ]

theorem statuses_put (s : State τ κ ε ρ α ω) (t : τ) (T : Task κ ε ρ α) (w : ω) :
    D.statuses (s.put t T w) = Function.update (D.statuses s) t (some (D.status T)) := by
  funext u
  by_cases h : u = t
  · subst u; simp [statuses, State.put]
  · simp [statuses, State.put, h]

end Discipline

theorem update_cases {β : Type} [DecidableEq τ] {f : τ → Option β} {t u : τ} {a b : β}
    (h : Function.update f t (some a) u = some b) : u = t ∧ a = b ∨ u ≠ t ∧ f u = some b := by
  by_cases hu : u = t
  · subst u
    exact .inl ⟨rfl, by simpa using h⟩
  · exact .inr ⟨hu, by simpa [hu] using h⟩

/-- A task that has come to a phase is running, or it has ended and nobody runs. -/
inductive Goes (D : Discipline κ ε ρ α γ) (t : τ) (c : κ) (g : γ) : Bool → Option τ → Prop
  | on : Goes D t c g false (some t)
  | ended {a : α} (post : D.post c a g) : Goes D t c g true none

theorem put_goes [DecidableEq τ] {D : Discipline κ ε ρ α γ} (s : State τ κ ε ρ α ω) (t : τ)
    {T : Task κ ε ρ α} (w : ω)
    (h : T.code.Follows (D.protocol T.call) (D.post T.call) (D.phase T)) :
    Goes D t T.call (D.phase T) (D.status T).ended (s.put t T w).running := by
  obtain ⟨c, code, trace⟩ := T
  cases code with
  | done a => exact .ended h
  | perform e k => exact .on

/-- What has to be shown of an invariant of world, running task and statuses: each kind of step
of the event loop keeps it, and the replies given are the ones the protocol reckons with. -/
structure Maintains [DecidableEq τ] (S : System τ κ ε ρ α ι η ω)
    (C : State τ κ ε ρ α ω → Label τ κ ι η → Prop) (D : Discipline κ ε ρ α γ)
    (Inv : ω → Option τ → (τ → Option (Status κ γ)) → Prop) : Prop where
  follows : ∀ c, (S.program c).Follows (D.protocol c) (D.post c) (D.first c)
  call : ∀ {s : State τ κ ε ρ α ω} {t c b v}, C s (.call t c) → Inv s.world none (D.statuses s) →
    D.statuses s t = none → Goes D t c (D.first c) b v →
    Inv s.world v (Function.update (D.statuses s) t (some ⟨c, D.first c, b⟩))
  reply : ∀ {s : State τ κ ε ρ α ω} {l t c g e r w}, C s l → Inv s.world s.running (D.statuses s) →
    D.statuses s t = some ⟨c, g, false⟩ → (D.protocol c).ok g e → Delivered S s l t e (.reply r w) →
    (D.protocol c).may g e r ∧ ∀ b v, Goes D t c ((D.protocol c).next g e r) b v →
      Inv w v (Function.update (D.statuses s) t (some ⟨c, (D.protocol c).next g e r, b⟩))
  wait : ∀ {s : State τ κ ε ρ α ω} {l t c g e w}, C s l → Inv s.world s.running (D.statuses s) →
    D.statuses s t = some ⟨c, g, false⟩ → (D.protocol c).ok g e → Delivered S s l t e (.wait w) →
    Inv w none (D.statuses s)
  outside : ∀ {s : State τ κ ε ρ α ω} {a w}, C s (.outside a) → Inv s.world none (D.statuses s) →
    S.outside a s.world = some w → Inv w none (D.statuses s)

namespace Maintains

variable [DecidableEq τ] {S : System τ κ ε ρ α ι η ω}
  {C : State τ κ ε ρ α ω → Label τ κ ι η → Prop} {D : Discipline κ ε ρ α γ}
  {Inv : ω → Option τ → (τ → Option (Status κ γ)) → Prop}

omit [DecidableEq τ] in
theorem status_perform {T : Task κ ε ρ α} {e : ε} {k : ρ e → Coroutine ε ρ α}
    (code : T.code = .perform e k) : D.status T = ⟨T.call, D.phase T, false⟩ := by
  simp only [Discipline.status, code, Coroutine.isDone]

theorem kept_put {s : State τ κ ε ρ α ω} (kept : D.Kept s) {t : τ} {T : Task κ ε ρ α} (w : ω)
    (h : T.code.Follows (D.protocol T.call) (D.post T.call) (D.phase T)) :
    D.Kept (s.put t T w) := by
  intro u U hU
  by_cases hu : u = t
  · subst u
    obtain rfl : T = U := by simpa [State.put] using hU
    exact h
  · exact kept u U (by simpa [State.put, hu] using hU)

theorem step (M : Maintains S C D Inv) {s s' : State τ κ ε ρ α ω} {l : Label τ κ ι η}
    (kept : D.Kept s) (inv : Inv s.world s.running (D.statuses s)) (meets : C s l)
    (moved : step S l s = some s') :
    D.Kept s' ∧ Inv s'.world s'.running (D.statuses s') := by
  cases step_moves S moved with
  | @call t c idle new =>
    have follows : (Task.spawn c (S.program c)).code.Follows (D.protocol c) (D.post c)
        (D.phase (Task.spawn c (S.program c))) := M.follows c
    refine ⟨kept_put kept s.world follows, ?_⟩
    rw [D.statuses_put]
    exact M.call meets (idle ▸ inv) (by simp [Discipline.statuses, new])
      (put_goes (D := D) (T := Task.spawn c (S.program c)) s t s.world follows)
  | @reply l t T e k r w task code delivered =>
    have hk := kept t T task
    rw [code] at hk
    have hs := D.statuses_of_task task
    rw [status_perform code] at hs
    obtain ⟨may, inv'⟩ := M.reply meets inv hs hk.1 delivered
    have follows := hk.2 r may
    rw [← D.phase_reply T (k r)] at follows
    refine ⟨kept_put kept w follows, ?_⟩
    have goes := put_goes (D := D) (T := ⟨T.call, k r, T.trace ++ [⟨e, r⟩]⟩) s t w follows
    have inv'' := inv' _ _ (D.phase_reply T (k r) e r ▸ goes)
    rw [← D.phase_reply T (k r)] at inv''
    rwa [D.statuses_put]
  | @wait l t T e k w task code delivered =>
    have hk := kept t T task
    rw [code] at hk
    have hs := D.statuses_of_task task
    rw [status_perform code] at hs
    exact ⟨kept, M.wait (s := s) meets inv hs hk.1 delivered⟩
  | outside idle stepped =>
    exact ⟨kept, idle ▸ M.outside (s := s) meets (idle ▸ inv) stepped⟩

theorem reaches (M : Maintains S C D Inv) {s s' : State τ κ ε ρ α ω} (kept : D.Kept s)
    (inv : Inv s.world s.running (D.statuses s)) (h : Reaches S C s s') :
    D.Kept s' ∧ Inv s'.world s'.running (D.statuses s') :=
  h.invariant (I := fun s => D.Kept s ∧ Inv s.world s.running (D.statuses s)) ⟨kept, inv⟩
    fun _ _ _ hi meets moved => M.step hi.1 hi.2 meets moved

omit [DecidableEq τ] in
theorem kept_empty (D : Discipline κ ε ρ α γ) (w : ω) :
    D.Kept (State.empty w : State τ κ ε ρ α ω) := by
  intro t T h
  cases h

theorem reaches_empty (M : Maintains S C D Inv) {w : ω} {s : State τ κ ε ρ α ω}
    (inv : Inv w none fun _ => none) (h : Reaches S C (State.empty w) s) :
    D.Kept s ∧ Inv s.world s.running (D.statuses s) :=
  M.reaches (kept_empty D w) inv h

/-- What every reply a task reckons with preserves holds between the phase the task has come to
and its trace. -/
theorem traced (M : Maintains S C D Inv) {J : γ → List ((e : ε) × ρ e) → Prop}
    (first : ∀ c, J (D.first c) [])
    (kept : ∀ c g tr e r, J g tr → (D.protocol c).ok g e → (D.protocol c).may g e r →
      J ((D.protocol c).next g e r) (tr ++ [⟨e, r⟩]))
    {w : ω} {s : State τ κ ε ρ α ω} (inv : Inv w none fun _ => none)
    (h : Reaches S C (State.empty w) s) {t : τ} {T : Task κ ε ρ α} (task : s.tasks t = some T) :
    J (D.phase T) T.trace := by
  induction h generalizing t T with
  | refl => cases task
  | @tail s s' l before meets moved ih =>
    obtain ⟨keeps, inv'⟩ := M.reaches_empty inv before
    cases step_moves S moved with
    | call idle new =>
      obtain ⟨rfl, rfl⟩ | ⟨-, task⟩ := update_cases task
      · exact first _
      · exact ih task
    | @reply l u U e k r w old code delivered =>
      obtain ⟨rfl, rfl⟩ | ⟨-, task⟩ := update_cases task
      · have hk := keeps t U old
        have hs := D.statuses_of_task old
        rw [code] at hk
        rw [status_perform code] at hs
        rw [D.phase_reply U (k r)]
        exact kept _ _ _ e r (ih old) hk.1 (M.reply meets inv' hs hk.1 delivered).1
      · exact ih task
    | wait old code delivered => exact ih task
    | outside idle stepped => exact ih task

end Maintains

/-- What has to be shown of a further invariant when one is known to hold already. -/
structure Extends [DecidableEq τ] (S : System τ κ ε ρ α ι η ω)
    (C : State τ κ ε ρ α ω → Label τ κ ι η → Prop) (D : Discipline κ ε ρ α γ)
    (Base Inv : ω → Option τ → (τ → Option (Status κ γ)) → Prop) : Prop where
  call : ∀ {s : State τ κ ε ρ α ω} {t c b v}, C s (.call t c) → Inv s.world none (D.statuses s) →
    D.statuses s t = none → Goes D t c (D.first c) b v →
    Inv s.world v (Function.update (D.statuses s) t (some ⟨c, D.first c, b⟩))
  reply : ∀ {s : State τ κ ε ρ α ω} {l t c g e r w}, C s l →
    Base s.world s.running (D.statuses s) → Inv s.world s.running (D.statuses s) →
    D.statuses s t = some ⟨c, g, false⟩ → (D.protocol c).ok g e →
    Delivered S s l t e (.reply r w) → ∀ b v, Goes D t c ((D.protocol c).next g e r) b v →
    Base w v (Function.update (D.statuses s) t (some ⟨c, (D.protocol c).next g e r, b⟩)) →
    Inv w v (Function.update (D.statuses s) t (some ⟨c, (D.protocol c).next g e r, b⟩))
  wait : ∀ {s : State τ κ ε ρ α ω} {l t c g e w}, C s l →
    Base s.world s.running (D.statuses s) → Inv s.world s.running (D.statuses s) →
    D.statuses s t = some ⟨c, g, false⟩ → (D.protocol c).ok g e → Delivered S s l t e (.wait w) →
    Inv w none (D.statuses s)
  outside : ∀ {s : State τ κ ε ρ α ω} {a w}, C s (.outside a) → Inv s.world none (D.statuses s) →
    S.outside a s.world = some w → Inv w none (D.statuses s)

theorem Extends.maintains [DecidableEq τ] {S : System τ κ ε ρ α ι η ω}
    {B C : State τ κ ε ρ α ω → Label τ κ ι η → Prop} {D : Discipline κ ε ρ α γ}
    {Base Inv : ω → Option τ → (τ → Option (Status κ γ)) → Prop} (E : Extends S C D Base Inv)
    (M : Maintains S B D Base) (weaker : ∀ s l, C s l → B s l) :
    Maintains S C D fun w v st => Base w v st ∧ Inv w v st where
  follows := M.follows
  call := fun meets inv new hg =>
    ⟨M.call (weaker _ _ meets) inv.1 new hg, E.call meets inv.2 new hg⟩
  reply := fun meets inv ht hok h => by
    obtain ⟨may, base⟩ := M.reply (weaker _ _ meets) inv.1 ht hok h
    exact ⟨may, fun b v hg => ⟨base b v hg, E.reply meets inv.1 inv.2 ht hok h b v hg (base b v hg)⟩⟩
  wait := fun meets inv ht hok h =>
    ⟨M.wait (weaker _ _ meets) inv.1 ht hok h, E.wait meets inv.1 inv.2 ht hok h⟩
  outside := fun meets inv h =>
    ⟨M.outside (weaker _ _ meets) inv.1 h, E.outside meets inv.2 h⟩

end PySwitch.Async
