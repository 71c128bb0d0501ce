import PySwitch.SlotInvariant
import Mathlib.Data.List.Nodup

namespace PySwitch

namespace Semaphore

/-- Everyone a semaphore knows of. -/
def members (s : Semaphore) : List Tid := s.waiters ++ s.woken ++ s.holders

/-- A slot is free while tasks wait only if one of them is on its way to it. -/
def Busy (s : Semaphore) : Prop := s.value = 0 ∨ s.waiters = [] ∨ s.woken ≠ []

/-- The tasks in line for a semaphore and those inside it, each of them there once. -/
structure Manned (s : Semaphore) (waits holds : Tid → Prop) : Prop where
  nodup : s.members.Nodup
  busy : s.Busy
  queued : ∀ u, s.Queued u ↔ waits u
  held : ∀ u, u ∈ s.holders ↔ holds u

variable {s s' : Semaphore} {waits holds : Tid → Prop} {t u : Tid} {n : ℕ}

theorem manned_make (limit : ℕ) : (make limit).Manned (fun _ => False) fun _ => False where
  nodup := List.nodup_nil
  busy := .inr (.inl rfl)
  queued := by simp [make, Queued]
  held := by simp [make]

theorem Manned.congr (h : s.Manned waits holds) {waits' holds' : Tid → Prop}
    (same : ∀ u, waits u ↔ waits' u) (same' : ∀ u, holds u ↔ holds' u) :
    s.Manned waits' holds' :=
  ⟨h.nodup, h.busy, fun u => (h.queued u).trans (same u), fun u => (h.held u).trans (same' u)⟩

section Wake

theorem wake_members (s : Semaphore) (n : ℕ) : (s.wake n).members.Perm s.members := by
  unfold members wake
  dsimp only
  apply List.Perm.append_right
  generalize min n (min s.value s.waiters.length) = m
  calc s.waiters.drop m ++ (s.woken ++ s.waiters.take m)
      _ |>.Perm (s.woken ++ s.waiters.take m ++ s.waiters.drop m) := List.perm_append_comm
      _ = s.woken ++ s.waiters := by rw [List.append_assoc, List.take_append_drop]
      _ |>.Perm (s.waiters ++ s.woken) := List.perm_append_comm

theorem wake_queued (s : Semaphore) (n : ℕ) : (s.wake n).Queued u ↔ s.Queued u := by
  unfold Queued wake
  dsimp only
  generalize min n (min s.value s.waiters.length) = m
  have split : u ∈ s.waiters ↔ u ∈ s.waiters.take m ∨ u ∈ s.waiters.drop m := by
    rw [← List.mem_append, List.take_append_drop]
  rw [List.mem_append, split]
  tauto

theorem wake_busy (s : Semaphore) (n : ℕ) (enough : 0 < n ∨ s.value = 0) : (s.wake n).Busy := by
  unfold Busy wake
  dsimp only
  by_cases free : s.value = 0
  · left
    omega
  by_cases nobody : s.waiters = []
  · right
    left
    simp [nobody]
  · right
    right
    have waiting := List.length_pos_of_ne_nil nobody
    apply List.append_ne_nil_of_right_ne_nil
    rw [Ne, ← List.length_eq_zero_iff, List.length_take]
    omega

end Wake

section Moves

variable (h : s.Manned waits holds)

include h

theorem Manned.apart (ht : s.Queued t) : t ∉ s.holders := by
  intro holder
  have apart := List.disjoint_of_nodup_append h.nodup
  apply apart _ holder
  rw [List.mem_append]
  exact ht

theorem Manned.woken_nodup : s.waiters.Nodup ∧ s.woken.Nodup ∧ s.waiters.Disjoint s.woken := by
  have nodup := (List.nodup_append.mp h.nodup).1
  obtain ⟨waiters, woken, -⟩ := List.nodup_append.mp nodup
  exact ⟨waiters, woken, List.disjoint_of_nodup_append nodup⟩

theorem Manned.enqueue (locked : s.locked = true) (new : ¬waits t) (out : ¬holds t) :
    (s.enqueue t).Manned (fun u => waits u ∨ u = t) holds where
  nodup := by
    have fresh : t ∉ s.members := by
      unfold members
      rw [List.mem_append, List.mem_append]
      rintro (queued | holder)
      · exact new ((h.queued t).mp queued)
      · exact out ((h.held t).mp holder)
    have same : (s.enqueue t).members.Perm (t :: s.members) := by
      unfold members Semaphore.enqueue
      simp only [List.append_assoc]
      exact List.perm_middle
    exact same.nodup_iff.mpr (List.nodup_cons.mpr ⟨fresh, h.nodup⟩)
  busy := by
    have before := h.busy
    unfold Busy at before ⊢
    simp only [Semaphore.locked, Bool.or_eq_true, decide_eq_true_eq, Bool.not_eq_true',
      List.isEmpty_eq_false_iff] at locked
    unfold Semaphore.enqueue
    dsimp only
    tauto
  queued := fun u => by
    have before := h.queued u
    unfold Queued at before ⊢
    unfold Semaphore.enqueue
    rw [List.mem_append, List.mem_singleton]
    tauto
  held := h.held

theorem Manned.take (free : s.locked = false) (out : ¬holds t) :
    (s.take t).Manned waits (fun u => holds u ∨ u = t) := by
  simp only [Semaphore.locked, Bool.or_eq_false_iff, decide_eq_false_iff_not, Bool.not_eq_false',
    List.isEmpty_iff] at free
  obtain ⟨⟨value, waiters⟩, woken⟩ := free
  unfold Semaphore.take
  rw [dif_pos (Nat.pos_of_ne_zero value)]
  constructor
  · have fresh : t ∉ s.members := by
      unfold members
      rw [waiters, woken]
      exact fun holder => out ((h.held t).mp holder)
    have same : (s.waiters ++ s.woken ++ t :: s.holders).Perm (t :: s.members) := List.perm_middle
    exact same.nodup_iff.mpr (List.nodup_cons.mpr ⟨fresh, h.nodup⟩)
  · exact .inr (.inl waiters)
  · exact h.queued
  · intro u
    rw [List.mem_cons, h.held]
    exact or_comm

theorem Manned.enterWoken (woken : t ∈ s.woken) :
    (s.enterWoken t).Manned (fun u => waits u ∧ u ≠ t) (fun u => holds u ∨ u = t) := by
  obtain ⟨-, nodup, apart⟩ := h.woken_nodup
  unfold Semaphore.enterWoken
  rw [dif_pos woken]
  constructor
  · apply (wake_members _ _).nodup_iff.mpr
    have same : (s.waiters ++ s.woken.erase t ++ t :: s.holders).Perm s.members := by
      unfold members
      rw [List.append_assoc, List.append_assoc]
      apply List.Perm.append_left
      exact List.perm_middle.trans ((List.perm_cons_erase woken).symm.append_right _)
    exact same.nodup_iff.mpr h.nodup
  · exact wake_busy _ _ (Nat.eq_zero_or_pos _).symm
  · intro u
    rw [wake_queued, ← h.queued]
    unfold Queued
    dsimp only
    rw [nodup.mem_erase_iff]
    constructor
    · rintro (waiting | ⟨ne, others⟩)
      · exact ⟨.inl waiting, fun same => apart (same ▸ waiting) woken⟩
      · exact ⟨.inr others, ne⟩
    · rintro ⟨waiting | others, ne⟩
      · exact .inl waiting
      · exact .inr ⟨ne, others⟩
  · intro u
    show u ∈ t :: s.holders ↔ _
    rw [List.mem_cons, h.held]
    exact or_comm

theorem Manned.leave :
    (s.leave t).Manned (fun u => waits u ∧ u ≠ t) holds := by
  obtain ⟨nodup, nodup', apart⟩ := h.woken_nodup
  unfold Semaphore.leave
  split
  · rename_i woken
    constructor
    · apply (wake_members _ _).nodup_iff.mpr
      apply List.Nodup.sublist _ h.nodup
      exact (List.Sublist.append_left List.erase_sublist _).append_right _
    · exact wake_busy _ _ (.inl (Nat.succ_pos _))
    · intro u
      rw [wake_queued, ← h.queued]
      unfold Queued
      dsimp only
      rw [nodup'.mem_erase_iff]
      constructor
      · rintro (waiting | ⟨ne, others⟩)
        · exact ⟨.inl waiting, fun same => apart (same ▸ waiting) woken⟩
        · exact ⟨.inr others, ne⟩
      · rintro ⟨waiting | others, ne⟩
        · exact .inl waiting
        · exact .inr ⟨ne, others⟩
    · exact h.held
  · rename_i asleep
    constructor
    · apply (wake_members _ _).nodup_iff.mpr
      apply List.Nodup.sublist _ h.nodup
      exact (List.erase_sublist.append_right _).append_right _
    · exact wake_busy _ _ (Nat.eq_zero_or_pos _).symm
    · intro u
      rw [wake_queued, ← h.queued]
      unfold Queued
      dsimp only
      rw [nodup.mem_erase_iff]
      constructor
      · rintro (⟨ne, waiting⟩ | woken)
        · exact ⟨.inl waiting, ne⟩
        · exact ⟨.inr woken, fun same => asleep (same ▸ woken)⟩
      · rintro ⟨waiting | woken, ne⟩
        · exact .inl ⟨ne, waiting⟩
        · exact .inr woken
    · exact h.held

theorem Manned.release (holder : holds t) :
    (s.release t).Manned waits (fun u => holds u ∧ u ≠ t) := by
  have inside := (h.held t).mpr holder
  have nodup : s.holders.Nodup := (List.nodup_append.mp h.nodup).2.1
  unfold Semaphore.release
  rw [dif_pos inside]
  constructor
  · apply (wake_members _ _).nodup_iff.mpr
    apply List.Nodup.sublist _ h.nodup
    exact List.Sublist.append_left List.erase_sublist _
  · exact wake_busy _ _ (.inl Nat.one_pos)
  · intro u
    rw [wake_queued]
    exact h.queued u
  · intro u
    show u ∈ s.holders.erase t ↔ _
    rw [nodup.mem_erase_iff, h.held]
    exact and_comm

end Moves

section Answers

variable {i : Input} {r : Except Exn Unit} (h : s.Manned waits holds)

include h

theorem Manned.enter_reply (out : ¬holds t) (hr : enter t i s = .reply r s') :
    r = .ok () ∧ s'.Manned waits (fun u => holds u ∨ u = t) := by
  cases i with
  | go =>
    simp only [enter] at hr
    split at hr
    · cases hr
    · rename_i free
      cases hr
      exact ⟨rfl, h.take (Bool.eq_false_of_not_eq_true free) out⟩
  | _ => cases hr

theorem Manned.enter_wait (new : ¬waits t) (out : ¬holds t) (hw : enter t i s = .wait s') :
    s'.Manned (fun u => waits u ∨ u = t) holds := by
  cases i with
  | go =>
    simp only [enter] at hw
    split at hw
    · rename_i locked
      cases hw
      exact h.enqueue locked new out
    · cases hw
  | _ => cases hw

/-- A waiting task gets its slot, or leaves when it is cancelled. -/
theorem Manned.resume_reply (hr : resume t i s = .reply r s') :
    (r = .ok () ∧ s'.Manned (fun u => waits u ∧ u ≠ t) (fun u => holds u ∨ u = t)) ∨
    (r = .error .cancelled ∧ s'.Manned (fun u => waits u ∧ u ≠ t) holds) := by
  cases i with
  | go =>
    simp only [resume] at hr
    split at hr
    · rename_i woken
      cases hr
      exact .inl ⟨rfl, h.enterWoken woken⟩
    · cases hr
  | cancel =>
    cases hr
    exact .inr ⟨rfl, h.leave⟩
  | _ => cases hr

/-- When all who are in line are still asleep, every slot is taken. -/
theorem Manned.full (waiting : waits t) (asleep : s.woken = []) :
    s.holders.length = s.limit := by
  have line : s.waiters ≠ [] := by
    obtain inside | woken := (h.queued t).mpr waiting
    · exact List.ne_nil_of_mem inside
    · rw [asleep] at woken
      cases woken
  have busy := h.busy
  have conserved := s.conserved
  unfold Busy at busy
  rw [asleep, List.length_nil] at conserved
  obtain none | nobody | woken := busy
  · omega
  · exact absurd nobody line
  · exact absurd asleep woken

theorem Manned.next (positive : 0 < s.limit) (waiting : waits t) :
    (∃ u ∈ s.woken, waits u) ∨ ∃ u, holds u := by
  by_cases asleep : s.woken = []
  · right
    have full := h.full waiting asleep
    obtain ⟨u, hu⟩ := List.exists_mem_of_length_pos (by omega : 0 < s.holders.length)
    exact ⟨u, (h.held u).mp hu⟩
  · left
    obtain ⟨u, hu⟩ := List.exists_mem_of_ne_nil _ asleep
    exact ⟨u, hu, (h.queued u).mp (.inr hu)⟩

end Answers

end Semaphore

/-- Which of the semaphores `σ` a task waits for, or is inside of, in each of its stages. -/
structure Places (γ σ : Type) where
  waits : γ → σ → Prop
  holds : γ → σ → Prop

namespace Places

open Async Semaphore

variable {κ γ σ : Type} (P : Places γ σ)

def InLine (k : σ) (running : Option Tid) (st : Tid → Option (Status κ γ)) (t : Tid) : Prop :=
  running ≠ some t ∧ ∃ u, st t = some u ∧ P.waits u.phase k

def Inside (k : σ) (st : Tid → Option (Status κ γ)) (t : Tid) : Prop :=
  ∃ u, st t = some u ∧ P.holds u.phase k

/-- The semaphores know of the tasks whose stages say that they are there, and of no others. -/
def Queues (semaphores : σ → Semaphore) (running : Option Tid)
    (st : Tid → Option (Status κ γ)) : Prop :=
  ∀ k, (semaphores k).Manned (P.InLine k running st) (P.Inside k st)

variable {P} {semaphores : σ → Semaphore} {running v : Option Tid}
  {st : Tid → Option (Status κ γ)} {t u : Tid} {c : κ} {g m : γ} {b : Bool} {k : σ}

theorem inLine_update (turn : running = some t ∨ running = none)
    (on : v = some t ∨ v = none ∧ ∀ k, ¬P.waits m k) :
    P.InLine k v (Function.update st t (some ⟨c, m, b⟩)) u ↔ P.InLine k running st u ∧ u ≠ t := by
  unfold InLine
  by_cases same : u = t
  · subst same
    simp only [Function.update_self, Option.some.injEq, exists_eq_left', ne_eq, not_true_eq_false,
      and_false, iff_false, not_and]
    intro off
    obtain running | ⟨-, none⟩ := on
    · exact absurd running off
    · exact none k
  · rw [Function.update_of_ne same]
    have out : v ≠ some u := by
      obtain rfl | ⟨rfl, -⟩ := on
      · exact fun h => same (Option.some.inj h).symm
      · exact nofun
    have out' : running ≠ some u := by
      obtain rfl | rfl := turn
      · exact fun h => same (Option.some.inj h).symm
      · exact nofun
    simp only [ne_eq, out, out', not_false_eq_true, true_and, same, and_true]

theorem inside_update : P.Inside k (Function.update st t (some ⟨c, m, b⟩)) u ↔
    P.Inside k st u ∧ u ≠ t ∨ u = t ∧ P.holds m k := by
  unfold Inside
  by_cases same : u = t
  · subst same
    simp
  · simp [same]

theorem inLine_self (ht : st t = some ⟨c, g, b⟩) :
    P.InLine k running st t ↔ running ≠ some t ∧ P.waits g k := by
  simp only [InLine, ht, Option.some.injEq, exists_eq_left']

theorem inside_self (ht : st t = some ⟨c, g, b⟩) : P.Inside k st t ↔ P.holds g k := by
  simp only [Inside, ht, Option.some.injEq, exists_eq_left']

theorem Queues.moves {semaphores' : σ → Semaphore} (turn : running = some t ∨ running = none)
    (on : v = some t ∨ v = none ∧ ∀ k, ¬P.waits m k)
    (moved : ∀ k, (semaphores' k).Manned (fun u => P.InLine k running st u ∧ u ≠ t)
      fun u => P.Inside k st u ∧ u ≠ t ∨ u = t ∧ P.holds m k) :
    P.Queues semaphores' v (Function.update st t (some ⟨c, m, b⟩)) :=
  fun k => (moved k).congr (fun _ => (inLine_update turn on).symm) fun _ => inside_update.symm

section Steps

variable (h : P.Queues semaphores running st) (turn : running = some t ∨ running = none)

include h

/-- A semaphore the task neither waits for nor enters or leaves. -/
theorem Queues.untouched (ht : st t = some ⟨c, g, b⟩) (out : P.waits g k → running = some t)
    (same : P.holds g k ↔ P.holds m k) :
    (semaphores k).Manned (fun u => P.InLine k running st u ∧ u ≠ t)
      fun u => P.Inside k st u ∧ u ≠ t ∨ u = t ∧ P.holds m k := by
  apply (h k).congr
  · intro u
    constructor
    · intro line
      refine ⟨line, ?_⟩
      rintro rfl
      obtain ⟨off, waiting⟩ := (inLine_self ht).mp line
      exact off (out waiting)
    · exact And.left
  · intro u
    by_cases at_ : u = t
    · subst at_
      rw [inside_self ht, same]
      tauto
    · simp [at_]

include turn

theorem Queues.stays {b' : Bool} (ht : st t = some ⟨c, g, b'⟩)
    (on : v = some t ∨ v = none ∧ ∀ k, ¬P.waits m k)
    (out : ∀ k, P.waits g k → running = some t) (same : ∀ k, P.holds g k ↔ P.holds m k) :
    P.Queues semaphores v (Function.update st t (some ⟨c, m, b⟩)) :=
  Queues.moves turn on fun k => h.untouched ht (out k) (same k)

theorem Queues.suspend (ht : st t = some ⟨c, g, b⟩)
    (out : ∀ k, ¬P.waits g k) : P.Queues semaphores none st := by
  intro k
  apply (h k).congr _ fun _ => Iff.rfl
  intro u
  by_cases at_ : u = t
  · subst at_
    simp [inLine_self ht, out]
  · obtain rfl | rfl := turn
    · simp [InLine, Ne.symm at_]
    · exact Iff.rfl

theorem Queues.call (new : st t = none) (on : v = some t ∨ v = none ∧ ∀ k, ¬P.waits m k)
    (out : ∀ k, ¬P.holds m k) : P.Queues semaphores v (Function.update st t (some ⟨c, m, b⟩)) := by
  apply Queues.moves turn on
  intro k
  apply (h k).congr
  · intro u
    refine ⟨fun line => ⟨line, ?_⟩, And.left⟩
    rintro rfl
    obtain ⟨-, x, hx, -⟩ := line
    cases new.symm.trans hx
  · intro u
    simp only [out, and_false, or_false]
    refine ⟨fun inside => ⟨inside, ?_⟩, And.left⟩
    rintro rfl
    obtain ⟨x, hx, -⟩ := inside
    cases new.symm.trans hx

end Steps

section Acquire

variable [DecidableEq σ] {i : Input} {r : Except Exn Unit} {s' : Semaphore} {b' : Bool}
  (h : P.Queues semaphores running st) (ht : st t = some ⟨c, g, b'⟩)
  (waits : ∀ k', P.waits g k' ↔ k' = k) (out : ∀ k', ¬P.holds g k')

include h ht waits out

/-- A task gets its answer from the semaphore it has come to, or has waited for. -/
theorem Queues.acquire (hr : running = some t ∧ enter t i (semaphores k) = .reply r s' ∨
      running = none ∧ resume t i (semaphores k) = .reply r s')
    (on : v = some t ∨ v = none ∧ ∀ k, ¬P.waits m k)
    (holds : ∀ k', P.holds m k' ↔ r = .ok () ∧ k' = k) :
    P.Queues (Function.update semaphores k s') v (Function.update st t (some ⟨c, m, b⟩)) := by
  have turn : running = some t ∨ running = none := hr.imp And.left And.left
  have outside : ¬P.Inside k st t := fun inside => out k ((inside_self ht).mp inside)
  apply Queues.moves turn on
  intro k'
  by_cases same : k' = k
  · subst same
    rw [Function.update_self]
    obtain ⟨running, hr⟩ | ⟨idle, hr⟩ := hr
    · have new : ¬P.InLine k' (some t) st t := fun line => line.1 rfl
      subst running
      obtain ⟨rfl, entered⟩ := (h k').enter_reply outside hr
      apply entered.congr
      · intro u
        refine ⟨fun line => ⟨line, ?_⟩, And.left⟩
        rintro rfl
        exact new line
      · intro u
        by_cases at_ : u = t
        · simp [at_, holds]
        · simp [at_]
    · obtain ⟨rfl, entered⟩ | ⟨rfl, left⟩ := (h k').resume_reply hr
      · apply entered.congr (fun _ => Iff.rfl)
        intro u
        by_cases at_ : u = t
        · simp [at_, holds]
        · simp [at_]
      · apply left.congr (fun _ => Iff.rfl)
        intro u
        by_cases at_ : u = t
        · subst at_
          simp [holds, outside]
        · simp [at_]
  · rw [Function.update_of_ne same]
    apply h.untouched ht
    · exact fun waiting => absurd ((waits k').mp waiting) same
    · simp [out, holds, same]

/-- A task that finds no free slot queues up. -/
theorem Queues.enqueue (running_self : running = some t)
    (hw : enter t i (semaphores k) = .wait s') :
    P.Queues (Function.update semaphores k s') none st := by
  subst running_self
  intro k'
  by_cases same : k' = k
  · subst same
    rw [Function.update_self]
    have new : ¬P.InLine k' (some t) st t := fun line => line.1 rfl
    apply ((h k').enter_wait new (fun inside => out k' ((inside_self ht).mp inside)) hw).congr
    · intro u
      by_cases at_ : u = t
      · subst at_
        simp [inLine_self ht, waits]
      · simp [InLine, at_, Ne.symm at_]
    · exact fun _ => Iff.rfl
  · rw [Function.update_of_ne same]
    apply (h k').congr _ fun _ => Iff.rfl
    intro u
    by_cases at_ : u = t
    · subst at_
      simp [inLine_self ht, waits, same]
    · simp [InLine, Ne.symm at_]

end Acquire

section Leave

variable [DecidableEq σ] {b' : Bool} (h : P.Queues semaphores running st)
  (ht : st t = some ⟨c, g, b'⟩) (out : ∀ k, ¬P.waits g k)

include h ht out

theorem Queues.release (turn : running = some t ∨ running = none)
    (inside : ∀ k', P.holds g k' ↔ k' = k)
    (on : v = some t ∨ v = none ∧ ∀ k, ¬P.waits m k) (left : ∀ k', ¬P.holds m k') :
    P.Queues (Function.update semaphores k ((semaphores k).release t)) v
      (Function.update st t (some ⟨c, m, b⟩)) := by
  apply Queues.moves turn on
  intro k'
  by_cases same : k' = k
  · subst same
    rw [Function.update_self]
    apply ((h k').release ((inside_self ht).mpr ((inside k').mpr rfl))).congr
    · intro u
      refine ⟨fun line => ⟨line, ?_⟩, And.left⟩
      rintro rfl
      exact out k' ((inLine_self ht).mp line).2
    · intro u
      simp [left]
  · rw [Function.update_of_ne same]
    apply h.untouched ht
    · exact fun waiting => absurd waiting (out k')
    · simp [inside, left, same]

end Leave

end Places

end PySwitch
