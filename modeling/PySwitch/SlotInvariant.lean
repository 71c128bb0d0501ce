import PySwitch.Answers
import PySwitch.SlotProtocol
import Mathlib.Data.Finset.Card

namespace PySwitch

namespace Semaphore

/-- In line for a slot, or handed one. -/
def Queued (s : Semaphore) (u : Tid) : Prop := u ∈ s.waiters ∨ u ∈ s.woken

/-- What a task does at a semaphore leaves the others where they are, or hands them a slot. -/
structure Spares (t : Tid) (s s' : Semaphore) : Prop where
  limit : s'.limit = s.limit
  holders : ∀ u ≠ t, u ∈ s.holders → u ∈ s'.holders
  queued : ∀ u ≠ t, s.Queued u → s'.Queued u

variable {s s' s'' : Semaphore} {t u : Tid}

theorem Spares.refl (t : Tid) (s : Semaphore) : Spares t s s :=
  ⟨rfl, fun _ _ h => h, fun _ _ h => h⟩

theorem Spares.trans (h : Spares t s s') (h' : Spares t s' s'') : Spares t s s'' :=
  ⟨h'.limit.trans h.limit, fun u hu hs => h'.holders u hu (h.holders u hu hs),
    fun u hu hs => h'.queued u hu (h.queued u hu hs)⟩

theorem spares_wake (t : Tid) (s : Semaphore) (n : ℕ) : Spares t s (s.wake n) := by
  refine ⟨rfl, fun _ _ h => h, ?_⟩
  intro u _ h
  obtain waits | woken := h
  · rw [← List.take_append_drop (min n (min s.value s.waiters.length)) s.waiters] at waits
    obtain taken | left := List.mem_append.mp waits
    · exact .inr (List.mem_append_right _ taken)
    · exact .inl left
  · exact .inr (List.mem_append_left _ woken)

theorem spares_take (s : Semaphore) (t : Tid) : Spares t s (s.take t) := by
  unfold take
  split
  · exact ⟨rfl, fun _ _ h => List.mem_cons_of_mem _ h, fun _ _ h => h⟩
  · exact .refl t s

theorem spares_enqueue (s : Semaphore) (t : Tid) : Spares t s (s.enqueue t) :=
  ⟨rfl, fun _ _ h => h, fun _ _ h => h.imp_left (List.mem_append_left _)⟩

theorem spares_enterWoken (s : Semaphore) (t : Tid) : Spares t s (s.enterWoken t) := by
  unfold enterWoken
  split
  · apply Spares.trans _ (spares_wake t _ _)
    exact ⟨rfl, fun _ _ h => List.mem_cons_of_mem _ h,
      fun _ hu h => h.imp_right (List.mem_erase_of_ne hu).mpr⟩
  · exact .refl t s

theorem spares_leave (s : Semaphore) (t : Tid) : Spares t s (s.leave t) := by
  unfold leave
  split
  · apply Spares.trans _ (spares_wake t _ _)
    exact ⟨rfl, fun _ _ h => h, fun _ hu h => h.imp_right (List.mem_erase_of_ne hu).mpr⟩
  · apply Spares.trans _ (spares_wake t _ _)
    exact ⟨rfl, fun _ _ h => h, fun _ hu h => h.imp_left (List.mem_erase_of_ne hu).mpr⟩

theorem spares_release (s : Semaphore) (t : Tid) : Spares t s (s.release t) := by
  unfold release
  split
  · apply Spares.trans _ (spares_wake t _ _)
    exact ⟨rfl, fun _ hu h => (List.mem_erase_of_ne hu).mpr h, fun _ _ h => h⟩
  · exact .refl t s

theorem spares_enter (t : Tid) (i : Input) (s : Semaphore) : (s.enter t i).Meets (Spares t s) := by
  cases i with
  | go =>
    simp only [enter]
    split
    · exact spares_enqueue s t
    · exact spares_take s t
  | _ => trivial

theorem spares_resume (t : Tid) (i : Input) (s : Semaphore) :
    (s.resume t i).Meets (Spares t s) := by
  cases i with
  | go =>
    simp only [resume]
    split
    · exact spares_enterWoken s t
    · trivial
  | cancel => exact spares_leave s t
  | _ => trivial

end Semaphore

namespace Slots

open Async Semaphore

abbrev Statuses : Type := Tid → Option (Status Call Stage)

/-- A step of one task, seen from the semaphores of a process. -/
structure Quiet (t : Tid) (p p' : Process) : Prop where
  current : p'.currentSemaphore = p.currentSemaphore
  next : p'.nextSemaphore = p.nextSemaphore
  spares : ∀ n, Spares t (p.semaphores n) (p'.semaphores n)

theorem Quiet.refl (t : Tid) (p : Process) : Quiet t p p := ⟨rfl, rfl, fun _ => .refl _ _⟩

theorem quiet_put {t : Tid} {p : Process} {n : ℕ} {s : Semaphore}
    (h : Spares t (p.semaphores n) s) : Quiet t p (SemaphoreEffect.put p n s) := by
  refine ⟨rfl, rfl, fun m => ?_⟩
  by_cases same : m = n
  · subst same
    simpa [SemaphoreEffect.put] using h
  · simpa [SemaphoreEffect.put, same] using Spares.refl t (p.semaphores m)

/-- Other effects do not come near the semaphores. -/
structure SameSlots (w w' : World) : Prop where
  semaphores : w'.process.semaphores = w.process.semaphores
  current : w'.process.currentSemaphore = w.process.currentSemaphore
  next : w'.process.nextSemaphore = w.process.nextSemaphore

theorem sameSlots_of_touches {e : Effect} {w w' : World} (h : e.Touches w w')
    (other : ∀ a, e ≠ .semaphore a) : SameSlots w w' := by
  cases e with
  | semaphore a => exact absurd rfl (other a)
  | host e => obtain rfl | ⟨-, rfl⟩ := h <;> exact ⟨rfl, rfl, rfl⟩
  | circuit e => obtain ⟨_, _, _, rfl⟩ := h; exact ⟨rfl, rfl, rfl⟩
  | provider e => obtain rfl | ⟨_, _, rfl⟩ := h <;> exact ⟨rfl, rfl, rfl⟩
  | stats e => obtain ⟨_, _, rfl⟩ := h; exact ⟨rfl, rfl, rfl⟩
  | _ => obtain ⟨_, rfl⟩ := h; exact ⟨rfl, rfl, rfl⟩

theorem SameSlots.quiet {w w' : World} (h : SameSlots w w') (t : Tid) :
    Quiet t w.process w'.process :=
  ⟨h.current, h.next, fun n => by rw [h.semaphores]; exact .refl _ _⟩

section Delivered

variable {cfg : Config} {profile : Profile} {s : ServiceState} {l : ServiceLabel} {t : Tid}
  {e : Effect} {w : World}

theorem lift_quiet {β : Type} {w : World} {n : ℕ} {a : Answer β Semaphore}
    (h : a.Meets (Spares t (w.process.semaphores n))) :
    ((a.lift (SemaphoreEffect.put w.process n)).lift (Effect.setProcess w)).Meets
      fun w' => Quiet t w.process w'.process := by
  cases a with
  | reply r s => exact quiet_put h
  | wait s => exact quiet_put h
  | refuse => trivial

theorem delivered_quiet {a : Answer e.Reply World}
    (h : Delivered (system cfg profile) s l t e a) :
    a.Meets fun w => Quiet t s.world.process w.process := by
  by_cases semaphore : ∃ b, e = .semaphore b
  · obtain ⟨b, rfl⟩ := semaphore
    obtain ⟨i, -, -, rfl⟩ | ⟨i, -, -, rfl⟩ := h.answer
    · cases b with
      | current q => cases i <;> first | trivial | exact .refl _ _
      | acquire q n => exact lift_quiet (spares_enter t i _)
      | release q n =>
        cases i with
        | go => exact quiet_put (spares_release _ t)
        | _ => trivial
    · cases b with
      | acquire q n => exact lift_quiet (spares_resume t i _)
      | _ => trivial
  · have touched := delivered_meets h
    cases a with
    | reply r w =>
      exact (sameSlots_of_touches touched fun b hb => semaphore ⟨b, hb⟩).quiet t
    | wait w =>
      exact (sameSlots_of_touches touched fun b hb => semaphore ⟨b, hb⟩).quiet t
    | refuse => trivial

theorem reply_quiet {r : e.Reply} (h : Delivered (system cfg profile) s l t e (.reply r w)) :
    Quiet t s.world.process w.process := delivered_quiet h

theorem wait_quiet (h : Delivered (system cfg profile) s l t e (.wait w)) :
    Quiet t s.world.process w.process := delivered_quiet h

theorem current_reply {q : Provider} {r : Option ℕ}
    (h : Delivered (system cfg profile) s l t (.semaphore (.current q)) (.reply r w)) :
    r = s.world.process.currentSemaphore q := by
  obtain ⟨i, -, -, ha⟩ | ⟨i, -, -, ha⟩ := h.answer
  · cases i <;> cases ha
    rfl
  · cases ha

theorem acquire_reply {q : Provider} {n : ℕ} {r : Except Exn Unit}
    (h : Delivered (system cfg profile) s l t (.semaphore (.acquire q n)) (.reply r w))
    (got : r = .ok ()) : t ∈ (w.process.semaphores n).holders := by
  obtain ⟨i, -, -, ha⟩ | ⟨i, -, -, ha⟩ := h.answer
  · obtain ⟨p, hp, rfl⟩ := Answer.lift_reply ha.symm
    obtain ⟨sem, hs, rfl⟩ := Answer.lift_reply hp
    simpa [Effect.setProcess, SemaphoreEffect.put] using (enter_reply hs).2 got
  · obtain ⟨p, hp, rfl⟩ := Answer.lift_reply ha.symm
    obtain ⟨sem, hs, rfl⟩ := Answer.lift_reply hp
    simpa [Effect.setProcess, SemaphoreEffect.put] using (resume_reply hs).2 got

theorem acquire_wait {q : Provider} {n : ℕ}
    (h : Delivered (system cfg profile) s l t (.semaphore (.acquire q n)) (.wait w)) :
    (w.process.semaphores n).Queued t := by
  obtain ⟨i, -, -, ha⟩ | ⟨i, -, -, ha⟩ := h.answer
  · obtain ⟨p, hp, rfl⟩ := Answer.lift_wait ha.symm
    obtain ⟨sem, hs, rfl⟩ := Answer.lift_wait hp
    cases i with
    | go =>
      simp only [enter] at hs
      split at hs
      · cases hs
        simp [Effect.setProcess, SemaphoreEffect.put, Queued, enqueue]
      · cases hs
    | _ => cases hs
  · obtain ⟨p, hp, rfl⟩ := Answer.lift_wait ha.symm
    obtain ⟨sem, hs, rfl⟩ := Answer.lift_wait hp
    exact absurd hs resume_never_waits

end Delivered

/-- The call is inside the semaphore. -/
def Holding (g : Stage) (q : Provider) (n : ℕ) : Prop :=
  g = .granted q n ∨ g = .calling q (some n) ∨ g = .leaving q n

/-- The call goes on without giving anyone else a turn. -/
def Prompt (g : Stage) : Prop := (∃ q, g = .chosen q none) ∨ ∃ q n, g = .granted q n

/-- Where a call stands with its semaphore. One that has not begun yet is at the semaphore in
force for `p`. -/
structure Placed (p : Provider) (w : World) (running : Option Tid) (t : Tid) (g : Stage) :
    Prop where
  bound : ∀ {q n}, g = .chosen q (some n) ∨ Holding g q n → n < w.process.nextSemaphore
  holding : ∀ {q n}, Holding g q n → t ∈ (w.process.semaphores n).holders
  queued : ∀ {q n}, g = .chosen q (some n) → running ≠ some t →
    (w.process.semaphores n).Queued t
  current : ∀ {n}, g = .chosen p (some n) ∨ g = .granted p n →
    w.process.currentSemaphore p = some n
  unlimited : g = .chosen p none → w.process.currentSemaphore p = none
  prompt : Prompt g → running = some t

structure Inv (p : Provider) (w : World) (running : Option Tid) (st : Statuses) : Prop where
  known : ∀ {q n}, w.process.currentSemaphore q = some n → n < w.process.nextSemaphore
  placed : ∀ {t u}, st t = some u → Placed p w running t u.phase

/-- A semaphore in force for the provider is replaced when nobody is in line for it. -/
def Patient (p : Provider) (s : ServiceState) (l : ServiceLabel) : Prop :=
  ∀ limit n, l = .outside (.setProviderConcurrency p limit) →
    s.world.process.currentSemaphore p = some n → ∀ t, ¬(s.world.process.semaphores n).Queued t

section Maintained

variable {cfg : Config} {profile : Profile} {s : ServiceState} {l : ServiceLabel} {t u : Tid}
  {c : Call} {g : Stage} {e : Effect} {r : e.Reply} {w w' : World} {p q : Provider}
  {running v : Option Tid} {b : Bool}

theorem placed_idle : Placed p w running t .idle := by
  constructor <;> simp [Holding, Prompt]

theorem placed_other (quiet : Quiet t w.process w'.process) (ne : u ≠ t)
    (turn : running = some t ∨ running = none) (h : Placed p w running u g) :
    Placed p w' v u g := by
  have off : running ≠ some u := by
    obtain rfl | rfl := turn
    · exact fun same => ne (Option.some.inj same).symm
    · exact nofun
  constructor
  · intro q n at_
    rw [quiet.next]
    exact h.bound at_
  · intro q n holds
    exact (quiet.spares n).holders u ne (h.holding holds)
  · intro q n at_ _
    exact (quiet.spares n).queued u ne (h.queued at_ off)
  · intro n at_
    rw [quiet.current]
    exact h.current at_
  · intro at_
    rw [quiet.current]
    exact h.unlimited at_
  · intro prompt
    exact absurd (h.prompt prompt) off

theorem goes_on (hg : Goes discipline t c g b v) (busy : g ≠ .idle) : v = some t := by
  cases hg with
  | on => rfl
  | ended post => exact absurd post busy

theorem delivered_turn {a : Answer e.Reply World}
    (h : Delivered (system cfg profile) s l t e a) : s.running = some t ∨ s.running = none := by
  obtain ⟨-, -, running, -⟩ | ⟨-, -, idle, -⟩ := h.answer
  · exact .inl running
  · exact .inr idle

/-- The effects of a call that is not at a semaphore. -/
theorem next_idle (hok : ok .idle e) (r : e.Reply) (other : ∀ q, e ≠ .semaphore (.current q)) :
    next .idle e r = .idle := by
  cases e with
  | semaphore a =>
    cases a with
    | current q => exact absurd rfl (other q)
    | _ => exact absurd trivial hok
  | _ => rfl

theorem ok_waiting {n : ℕ} (h : ok (.chosen q (some n)) e) : e = .semaphore (.acquire q n) := by
  cases e with
  | semaphore a =>
    cases a with
    | acquire q' m =>
      obtain ⟨rfl, rfl⟩ := h
      rfl
    | _ => exact h.elim
  | _ => exact h.elim

theorem ok_unlimited (h : ok (.chosen q none) e) :
    ∃ paymentId amount currency token, e = .provider (.startPayment q paymentId amount currency token) := by
  cases e with
  | provider a =>
    cases a with
    | startPayment q' paymentId amount currency token =>
      obtain rfl := h
      exact ⟨_, _, _, _, rfl⟩
    | _ => exact h.elim
  | _ => exact h.elim

theorem ok_granted {n : ℕ} (h : ok (.granted q n) e) :
    ∃ paymentId amount currency token, e = .provider (.startPayment q paymentId amount currency token) := by
  cases e with
  | provider a =>
    cases a with
    | startPayment q' paymentId amount currency token =>
      obtain rfl := h
      exact ⟨_, _, _, _, rfl⟩
    | _ => exact h.elim
  | _ => exact h.elim

theorem ok_calling {n : Option ℕ} (h : ok (.calling q n) e) :
    ∃ paymentId, e = .provider (.finishPayment q paymentId) := by
  cases e with
  | provider a =>
    cases a with
    | finishPayment q' paymentId =>
      obtain rfl := h
      exact ⟨_, rfl⟩
    | _ => exact h.elim
  | _ => exact h.elim

theorem ok_leaving {n : ℕ} (h : ok (.leaving q n) e) : e = .semaphore (.release q n) := by
  cases e with
  | semaphore a =>
    cases a with
    | release q' m =>
      obtain ⟨rfl, rfl⟩ := h
      rfl
    | _ => exact h.elim
  | _ => exact h.elim

theorem provider_same {a : ProviderEffect} {r : (Effect.provider a).Reply}
    (hd : Delivered (system cfg profile) s l t (.provider a) (.reply r w)) :
    SameSlots s.world w := sameSlots_of_touches (reply_touches hd) nofun

/-- A call that stays inside its semaphore. -/
theorem placed_inside {n : ℕ} (same : SameSlots s.world w) (h : Placed p s.world s.running t g)
    (holds : Holding g q n) {g' : Stage} (inside : g' = .calling q (some n) ∨ g' = .leaving q n) :
    Placed p w v t g' := by
  have next := h.bound (.inr holds)
  have holder := h.holding holds
  obtain rfl | rfl := inside
  all_goals
    constructor <;>
      simp [Holding, Prompt, same.next, same.semaphores, next, holder]

theorem placed_reply (known : ∀ {q n}, s.world.process.currentSemaphore q = some n →
      n < s.world.process.nextSemaphore)
    (h : Placed p s.world s.running t g) (hok : ok g e)
    (hd : Delivered (system cfg profile) s l t e (.reply r w))
    (hg : Goes discipline t c (next g e r) b v) : Placed p w v t (next g e r) := by
  have quiet := reply_quiet hd
  cases g with
  | idle =>
    by_cases choosing : ∃ q, e = .semaphore (.current q)
    · obtain ⟨q, rfl⟩ := choosing
      have eq := current_reply hd
      have on := goes_on hg Stage.noConfusion
      simp only [next] at on ⊢
      constructor
      · intro q' n at_
        simp only [Holding, Stage.chosen.injEq, reduceCtorEq, or_false] at at_
        rw [quiet.next]
        exact known (eq ▸ at_.2)
      · simp [Holding]
      · intro q' n _ off
        exact absurd on off
      · intro n at_
        simp only [Stage.chosen.injEq, reduceCtorEq, or_false] at at_
        rw [quiet.current, ← at_.1, ← eq, at_.2]
      · intro at_
        simp only [Stage.chosen.injEq] at at_
        rw [quiet.current, ← at_.1, ← eq, at_.2]
      · exact fun _ => on
    · rw [next_idle hok r fun q hq => choosing ⟨q, hq⟩]
      exact placed_idle
  | chosen q n =>
    cases n with
    | some n =>
      obtain rfl := ok_waiting hok
      cases r with
      | error x => exact placed_idle
      | ok _ =>
        have on := goes_on hg Stage.noConfusion
        have holder := acquire_reply hd rfl
        have bound := h.bound (.inl rfl)
        have current := @h.current
        simp only [next] at on ⊢
        constructor
        · intro q' m at_
          simp only [Holding, Stage.granted.injEq, reduceCtorEq, or_false, false_or] at at_
          rw [quiet.next, ← at_.2]
          exact bound
        · intro q' m at_
          simp only [Holding, Stage.granted.injEq, reduceCtorEq, or_false] at at_
          rw [← at_.2]
          exact holder
        · intro q' m at_
          cases at_
        · intro m at_
          simp only [Stage.granted.injEq, reduceCtorEq, false_or] at at_
          obtain ⟨rfl, rfl⟩ := at_
          rw [quiet.current]
          exact current (.inl rfl)
        · intro at_
          cases at_
        · exact fun _ => on
    | none =>
      obtain ⟨paymentId, amount, currency, token, rfl⟩ := ok_unlimited hok
      constructor <;> simp [next, Holding, Prompt]
  | granted q n =>
    obtain ⟨paymentId, amount, currency, token, rfl⟩ := ok_granted hok
    exact placed_inside (provider_same hd) h (.inl rfl) (.inl rfl)
  | calling q n =>
    obtain ⟨paymentId, rfl⟩ := ok_calling hok
    cases n with
    | some n => exact placed_inside (provider_same hd) h (.inr (.inl rfl)) (.inr rfl)
    | none => exact placed_idle
  | leaving q n =>
    obtain rfl := ok_leaving hok
    exact placed_idle

theorem start_never_waits {paymentId : Uuid} {amount : ℤ} {currency token : String} :
    ¬Delivered (system cfg profile) s l t
      (.provider (.startPayment q paymentId amount currency token)) (.wait w) := by
  intro h
  obtain ⟨i, -, -, ha⟩ | ⟨i, -, -, ha⟩ := h.answer
  · cases i <;> cases ha
  · cases ha

/-- A call suspends in line for a slot, in the provider, or away from the semaphores. -/
theorem placed_wait (h : Placed p s.world s.running t g) (hok : ok g e)
    (hd : Delivered (system cfg profile) s l t e (.wait w)) : Placed p w none t g := by
  have quiet := wait_quiet hd
  cases g with
  | idle => exact placed_idle
  | chosen q n =>
    cases n with
    | some n =>
      obtain rfl := ok_waiting hok
      have queued := acquire_wait hd
      constructor
      · intro q' m at_
        rw [quiet.next]
        exact h.bound at_
      · simp [Holding]
      · intro q' m at_ _
        obtain ⟨-, rfl⟩ : q = q' ∧ n = m := by simpa using at_
        exact queued
      · intro m at_
        rw [quiet.current]
        exact h.current at_
      · intro at_
        cases at_
      · simp [Prompt]
    | none =>
      obtain ⟨_, _, _, _, rfl⟩ := ok_unlimited hok
      exact absurd hd start_never_waits
  | granted q n =>
    obtain ⟨_, _, _, _, rfl⟩ := ok_granted hok
    exact absurd hd start_never_waits
  | calling q n =>
    obtain ⟨_, rfl⟩ := ok_calling hok
    obtain rfl := provider_wait hd
    constructor
    · exact h.bound
    · exact h.holding
    · intro _ _ at_
      cases at_
    · simp
    · intro at_
      cases at_
    · simp [Prompt]
  | leaving q n =>
    obtain rfl := ok_leaving hok
    exact absurd hd release_never_waits

theorem known_configured {process : Process}
    (known : ∀ {q n}, process.currentSemaphore q = some n → n < process.nextSemaphore)
    (provider : Provider) (limit : ℕ) {n : ℕ}
    (at_ : (process.setProviderConcurrency provider limit).currentSemaphore q = some n) :
    n < (process.setProviderConcurrency provider limit).nextSemaphore := by
  simp only [Process.setProviderConcurrency] at at_ ⊢
  by_cases same : q = provider
  · subst same
    rw [Function.update_self] at at_
    split at at_
    · cases at_
    · cases at_
      exact Nat.lt_succ_self _
  · rw [Function.update_of_ne same] at at_
    exact Nat.lt_succ_of_lt (known at_)

/-- Replacing a semaphore leaves those inside it and those in line for it where they are. -/
theorem placed_configured {provider : Provider} {limit : ℕ} (h : Placed p w none t g)
    (patient : provider = p → ∀ n, w.process.currentSemaphore p = some n →
      ∀ t, ¬(w.process.semaphores n).Queued t) :
    Placed p { w with process := w.process.setProviderConcurrency provider limit } none t g := by
  have kept {q : Provider} {n : ℕ} (at_ : g = .chosen q (some n) ∨ Holding g q n) :
      (w.process.setProviderConcurrency provider limit).semaphores n = w.process.semaphores n :=
    Function.update_of_ne (h.bound at_).ne _ _
  have calm : ¬Prompt g := fun prompt => nomatch h.prompt prompt
  constructor
  · intro q n at_
    exact Nat.lt_succ_of_lt (h.bound at_)
  · intro q n holds
    rw [kept (.inr holds)]
    exact h.holding holds
  · intro q n at_ _
    rw [kept (.inl at_)]
    exact h.queued at_ nofun
  · intro n at_
    obtain waiting | granted := at_
    · have current := h.current (.inl waiting)
      have queued := h.queued waiting nofun
      by_cases same : provider = p
      · exact absurd queued (patient same n current t)
      · exact (Function.update_of_ne (Ne.symm same) _ _).trans current
    · exact absurd (.inr ⟨p, n, granted⟩) calm
  · intro unlimited
    exact absurd (.inl ⟨p, unlimited⟩) calm
  · intro prompt
    exact absurd prompt calm

theorem inv_maintained (cfg : Config) (profile : Profile) (p : Provider) :
    Maintains (system cfg profile) (Patient p) discipline (Inv p) where
  follows := run_follows cfg
  call := by
    intro s t c b v _ inv _ _
    refine ⟨inv.known, ?_⟩
    intro u x hx
    obtain ⟨rfl, rfl⟩ | ⟨ne, hx⟩ := update_cases hx
    · exact placed_idle
    · exact placed_other (.refl t _) ne (.inr rfl) (inv.placed hx)
  reply := by
    intro s l t c g e r w _ inv ht hok hd
    refine ⟨trivial, fun b v hg => ⟨?_, ?_⟩⟩
    · intro q n at_
      rw [(reply_quiet hd).current] at at_
      rw [(reply_quiet hd).next]
      exact inv.known at_
    · intro u x hx
      obtain ⟨rfl, rfl⟩ | ⟨ne, hx⟩ := update_cases hx
      · exact placed_reply inv.known (inv.placed ht) hok hd hg
      · exact placed_other (reply_quiet hd) ne (delivered_turn hd) (inv.placed hx)
  wait := by
    intro s l t c g e w _ inv ht hok hd
    constructor
    · intro q n at_
      rw [(wait_quiet hd).current] at at_
      rw [(wait_quiet hd).next]
      exact inv.known at_
    · intro u x hx
      by_cases same : u = t
      · subst same
        obtain rfl := Option.some.inj (ht.symm.trans hx)
        exact placed_wait (inv.placed ht) hok hd
      · exact placed_other (wait_quiet hd) same (delivered_turn hd) (inv.placed hx)
  outside := by
    intro s a w patient inv h
    cases a with
    | setProviderConcurrency provider limit =>
      cases h
      refine ⟨fun at_ => known_configured inv.known provider limit at_, fun hx => ?_⟩
      apply placed_configured (inv.placed hx)
      rintro rfl n current
      exact patient limit n rfl current
    | tick elapsed =>
      obtain ⟨redis, -, rfl⟩ := Option.map_eq_some_iff.mp h
      refine ⟨inv.known, fun hx => ?_⟩
      have placed := inv.placed hx
      exact ⟨placed.bound, placed.holding, placed.queued, placed.current, placed.unlimited,
        placed.prompt⟩

theorem inv_initial (circuit : CircuitBreaker) (concurrency : List (Provider × ℕ)) :
    Inv p (.initial circuit concurrency) none fun _ => none := by
  have all (l : List (Provider × ℕ)) (process : Process)
      (known : ∀ {q n}, process.currentSemaphore q = some n → n < process.nextSemaphore) {q n} :
      (l.foldl (fun p c => p.setProviderConcurrency c.1 c.2) process).currentSemaphore q = some n →
      n < (l.foldl (fun p c => p.setProviderConcurrency c.1 c.2) process).nextSemaphore := by
    induction l generalizing process with
    | nil => exact known
    | cons c l ih => exact ih _ fun at_ => known_configured known c.1 c.2 at_
  refine ⟨fun {q n} => all concurrency _ ?_, nofun⟩
  intro q n at_
  cases at_

end Maintained

end Slots

end PySwitch
