import PySwitch.Input
import Mathlib.Data.List.Basic

namespace PySwitch

/-- An `asyncio` semaphore. A released slot is handed to the first waiter, who is `woken`
but has it only when the task runs again; newcomers queue behind waiters. `holders` are the
tasks inside the guarded block. A lock is a semaphore of one slot. -/
structure Semaphore where
  limit : ℕ
  value : ℕ
  waiters : List Tid
  woken : List Tid
  holders : List Tid
  conserved : value + woken.length + holders.length = limit

namespace Semaphore

def make (limit : ℕ) : Semaphore := ⟨limit, limit, [], [], [], rfl⟩

/-- Hand at most `n` free slots to the longest waiting tasks. -/
def wake (s : Semaphore) (n : ℕ) : Semaphore :=
  let m := min n (min s.value s.waiters.length)
  { s with
    value := s.value - m
    waiters := s.waiters.drop m
    woken := s.woken ++ s.waiters.take m
    conserved := by
      have := s.conserved
      rw [List.length_append, List.length_take]
      omega }

def locked (s : Semaphore) : Bool := s.value = 0 || !s.waiters.isEmpty || !s.woken.isEmpty

def enqueue (s : Semaphore) (t : Tid) : Semaphore := { s with waiters := s.waiters ++ [t] }

/-- Take a slot at once, when nobody is ahead. -/
def take (s : Semaphore) (t : Tid) : Semaphore :=
  if h : 0 < s.value then
    { s with
      value := s.value - 1
      holders := t :: s.holders
      conserved := by
        have := s.conserved
        rw [List.length_cons]
        omega }
  else s

/-- A woken task enters the guarded block. -/
def enterWoken (s : Semaphore) (t : Tid) : Semaphore :=
  if h : t ∈ s.woken then
    wake { s with
      woken := s.woken.erase t
      holders := t :: s.holders
      conserved := by
        have := s.conserved
        have := List.length_pos_of_mem h
        rw [List.length_cons, List.length_erase_of_mem h]
        omega } s.value
  else s

/-- A cancelled waiter leaves the queue, and gives back the slot it was handed, if any. -/
def leave (s : Semaphore) (t : Tid) : Semaphore :=
  if h : t ∈ s.woken then
    wake { s with
      value := s.value + 1
      woken := s.woken.erase t
      conserved := by
        have := s.conserved
        have := List.length_pos_of_mem h
        rw [List.length_erase_of_mem h]
        omega } (s.value + 1)
  else wake { s with waiters := s.waiters.erase t } s.value

def release (s : Semaphore) (t : Tid) : Semaphore :=
  if h : t ∈ s.holders then
    wake { s with
      value := s.value + 1
      holders := s.holders.erase t
      conserved := by
        have := s.conserved
        have := List.length_pos_of_mem h
        rw [List.length_erase_of_mem h]
        omega } 1
  else s

/-- However tasks come and go, no more of them are inside than the limit. -/
theorem holders_le (s : Semaphore) : s.holders.length ≤ s.limit := by
  have := s.conserved
  omega

/-- One holder at a time, when there is one slot. -/
theorem holder_unique {s : Semaphore} (h : s.limit = 1) {t u : Tid} (ht : t ∈ s.holders)
    (hu : u ∈ s.holders) : t = u := by
  have hl := s.holders_le
  obtain ⟨a, ha⟩ : ∃ a, s.holders = [a] := by
    have := List.length_pos_of_mem ht
    exact List.length_eq_one_iff.mp (by omega)
  rw [ha, List.mem_singleton] at ht hu
  rw [ht, hu]

/-- Nobody is put out. -/
structure Admits (s s' : Semaphore) : Prop where
  limit : s'.limit = s.limit
  holders : ∀ u ∈ s.holders, u ∈ s'.holders

theorem Admits.refl (s : Semaphore) : s.Admits s := ⟨rfl, fun _ h => h⟩

theorem admits_leave (s : Semaphore) (t : Tid) : s.Admits (s.leave t) := by
  unfold leave
  split <;> exact ⟨rfl, fun _ h => h⟩

theorem release_holders (s : Semaphore) (t : Tid) :
    (s.release t).limit = s.limit ∧ (s.release t).holders = s.holders.erase t := by
  unfold release
  split
  · exact ⟨rfl, rfl⟩
  · rename_i h
    exact ⟨rfl, (List.erase_of_not_mem h).symm⟩

def enter (t : Tid) : Input → Semaphore → Async.Answer (Except Exn Unit) Semaphore
  | .go, s => if s.locked then .wait (s.enqueue t) else .reply (.ok ()) (s.take t)
  | _, _ => .refuse

def resume (t : Tid) : Input → Semaphore → Async.Answer (Except Exn Unit) Semaphore
  | .go, s => if t ∈ s.woken then .reply (.ok ()) (s.enterWoken t) else .refuse
  | .cancel, s => .reply (.error .cancelled) (s.leave t)
  | _, _ => .refuse

/-- A task gets a slot, or is cancelled. -/
def Acquired (t : Tid) (s : Semaphore) (r : Except Exn Unit) (s' : Semaphore) : Prop :=
  s.Admits s' ∧ (r = .ok () → t ∈ s'.holders)

theorem enter_reply {t : Tid} {i : Input} {s s' : Semaphore} {r : Except Exn Unit}
    (h : enter t i s = .reply r s') : s.Acquired t r s' := by
  cases i with
  | go =>
    simp only [enter] at h
    split at h
    · cases h
    · rename_i free
      cases h
      have pos : 0 < s.value := by
        simp only [locked, Bool.or_eq_true, decide_eq_true_eq] at free
        omega
      rw [take, dif_pos pos]
      exact ⟨⟨rfl, fun _ h => List.mem_cons_of_mem _ h⟩, fun _ => List.mem_cons_self ..⟩
  | _ => cases h

theorem enter_wait {t : Tid} {i : Input} {s s' : Semaphore} (h : enter t i s = .wait s') :
    s.Admits s' := by
  cases i with
  | go =>
    simp only [enter] at h
    split at h <;> cases h
    exact ⟨rfl, fun _ h => h⟩
  | _ => cases h

theorem resume_reply {t : Tid} {i : Input} {s s' : Semaphore} {r : Except Exn Unit}
    (h : resume t i s = .reply r s') : s.Acquired t r s' := by
  cases i with
  | go =>
    simp only [resume] at h
    split at h <;> cases h
    rename_i woken
    rw [enterWoken, dif_pos woken]
    exact ⟨⟨rfl, fun _ h => List.mem_cons_of_mem _ h⟩, fun _ => List.mem_cons_self ..⟩
  | cancel =>
    cases h
    exact ⟨admits_leave s t, nofun⟩
  | _ => cases h

theorem resume_never_waits {t : Tid} {i : Input} {s s' : Semaphore} :
    resume t i s ≠ .wait s' := by
  intro h
  cases i with
  | go => simp only [resume] at h; split at h <;> cases h
  | _ => cases h

end Semaphore

end PySwitch
