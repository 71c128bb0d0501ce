import Mathlib.Data.List.Infix
import Mathlib.Data.List.Nodup
import Mathlib.Data.List.Perm.Subperm

namespace PySwitch.DeliveryOrder

variable {α : Type} {order accepted accepted' : List α} {x : α}

/-- Everything that comes before `x` in the order has been accepted. -/
def Due (order accepted : List α) (x : α) : Prop :=
  ∃ before after, order = before ++ x :: after ∧ ∀ y ∈ before, y ∈ accepted

/-- The elements of a queue are due one after the other. -/
def Queued (order : List α) : List α → List α → Prop
  | _, [] => True
  | accepted, x :: rest => Due order accepted x ∧ Queued order (x :: accepted) rest

theorem Due.mono (h : Due order accepted x) (sub : ∀ y ∈ accepted, y ∈ accepted') :
    Due order accepted' x := by
  obtain ⟨before, after, split, done⟩ := h
  exact ⟨before, after, split, fun y hy => sub y (done y hy)⟩

theorem Due.grow (h : Due order accepted x) (new : List α) : Due (order ++ new) accepted x := by
  obtain ⟨before, after, rfl, done⟩ := h
  exact ⟨before, after ++ new, by simp, done⟩

theorem Queued.mono {queue : List α} (h : Queued order accepted queue)
    (sub : ∀ y ∈ accepted, y ∈ accepted') : Queued order accepted' queue := by
  induction queue generalizing accepted accepted' with
  | nil => trivial
  | cons x rest ih =>
    refine ⟨h.1.mono sub, ih h.2 fun y hy => ?_⟩
    obtain rfl | hy := List.mem_cons.mp hy
    · exact List.mem_cons_self ..
    · exact List.mem_cons_of_mem _ (sub y hy)

theorem Queued.grow {queue : List α} (h : Queued order accepted queue) (new : List α) :
    Queued (order ++ new) accepted queue := by
  induction queue generalizing accepted with
  | nil => trivial
  | cons x rest ih => exact ⟨h.1.grow new, ih h.2⟩

theorem Queued.take {queue : List α} (h : Queued order accepted queue) (n : ℕ) :
    Queued order accepted (queue.take n) := by
  induction queue generalizing accepted n with
  | nil => rw [List.take_nil]; trivial
  | cons x rest ih =>
    cases n with
    | zero => trivial
    | succ n => exact ⟨h.1, ih h.2 n⟩

/-- What is left of an order once some accepted elements are struck out is a queue. -/
theorem queued_filter {before rest : List α} {p : α → Bool}
    (done : ∀ y ∈ before, y ∈ accepted) (struck : ∀ y, p y = false → y ∈ accepted) :
    Queued (before ++ rest) accepted (rest.filter p) := by
  induction rest generalizing before accepted with
  | nil => trivial
  | cons x rest ih =>
    have split : before ++ x :: rest = (before ++ [x]) ++ rest := by simp
    cases hx : p x with
    | false =>
      rw [List.filter_cons_of_neg (by simp [hx]), split]
      refine ih (fun y hy => ?_) struck
      obtain hy | hy := List.mem_append.mp hy
      · exact done y hy
      · exact List.mem_singleton.mp hy ▸ struck x hx
    | true =>
      rw [List.filter_cons_of_pos hx]
      refine ⟨⟨before, rest, rfl, done⟩, ?_⟩
      rw [split]
      refine ih (fun y hy => ?_) fun y hy => List.mem_cons_of_mem _ (struck y hy)
      obtain hy | hy := List.mem_append.mp hy
      · exact List.mem_cons_of_mem _ (done y hy)
      · exact List.mem_singleton.mp hy ▸ List.mem_cons_self ..

theorem eraseDups_concat [DecidableEq α] (l : List α) (x : α) :
    (l ++ [x]).eraseDups = if x ∈ l then l.eraseDups else l.eraseDups ++ [x] := by
  rw [List.eraseDups_append]
  split
  · rename_i h
    simp [List.removeAll, h]
  · rename_i h
    simp [List.removeAll, h, List.eraseDups_cons]

theorem nodup_eraseDups [DecidableEq α] (l : List α) : l.eraseDups.Nodup := by
  induction l using List.reverseRecOn with
  | nil => exact List.nodup_nil
  | append_singleton l x ih =>
    rw [eraseDups_concat]
    split
    · exact ih
    · rename_i new
      rw [List.nodup_append]
      refine ⟨ih, List.nodup_singleton x, ?_⟩
      rintro y hy z hz rfl
      obtain rfl := List.mem_singleton.mp hz
      exact new (List.mem_eraseDups.mp hy)

/-- Accepting what is due keeps the first acceptances in order. -/
theorem first_acceptances [DecidableEq α] (nodup : order.Nodup)
    (first : accepted.eraseDups <+: order) (due : Due order accepted x) :
    (accepted ++ [x]).eraseDups <+: order := by
  rw [eraseDups_concat]
  split
  · exact first
  · rename_i new
    obtain ⟨before, after, rfl, done⟩ := due
    have prefixed : before <+: before ++ x :: after := List.prefix_append ..
    have short : before.length ≤ accepted.eraseDups.length := by
      apply (List.subperm_of_subset (List.nodup_append.mp nodup).1 _).length_le
      exact fun y hy => List.mem_eraseDups.mpr (done y hy)
    have same : before = accepted.eraseDups := by
      obtain ⟨middle, hm⟩ := List.prefix_of_prefix_length_le prefixed first short
      cases middle with
      | nil => rw [← hm, List.append_nil]
      | cons z middle =>
        exfalso
        rw [← hm] at first
        obtain ⟨rest, hr⟩ := first
        have hz : z = x := by simpa using congrArg List.head? (List.append_cancel_left
          (by simpa using hr : before ++ (z :: (middle ++ rest)) = before ++ x :: after))
        subst z
        apply new
        rw [← List.mem_eraseDups, ← hm]
        simp
    rw [← same]
    exact ⟨after, by simp⟩

end PySwitch.DeliveryOrder
