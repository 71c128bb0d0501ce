import Mathlib.Algebra.Order.Field.Basic
import Mathlib.Algebra.Order.Archimedean.Basic
import Mathlib.Data.Nat.Cast.Order.Ring
import Mathlib.Tactic.Linarith
import Mathlib.Tactic.Ring
import PySwitch.Serial

namespace PySwitch.TokenBucket

open Serial

/-- A bucket that holds one token at least and fills at a positive rate. -/
structure Plan (K : Type) [Field K] [LinearOrder K] [IsStrictOrderedRing K] where
  capacity : K
  refill : K
  one_le_capacity : 1 ≤ capacity
  refill_pos : 0 < refill

structure Bucket (K : Type) where
  tokens : K
  updated : K

/-- Readings in order come in two parts, cut where a downward closed property ends. -/
theorem exists_cut {α : Type} [Preorder α] {readings : List α} {p : α → Prop} [DecidablePred p] (down : ∀ x y, x ≤ y → p y → p x)
    (ordered : readings.Pairwise (· ≤ ·)) :
    ∃ early late, readings = early ++ late ∧ (∀ x ∈ early, p x) ∧ ∀ y ∈ late, ¬p y := by
  induction readings with
  | nil => exact ⟨[], [], rfl, by simp, by simp⟩
  | cons now readings ih =>
    obtain ⟨first, ordered⟩ := List.pairwise_cons.mp ordered
    by_cases here : p now
    · obtain ⟨early, late, rfl, before, past⟩ := ih ordered
      exact ⟨now :: early, late, rfl, by simpa [here] using before, past⟩
    · apply Exists.intro []
      apply Exists.intro (now :: readings)
      have past : ∀ y ∈ readings, ¬p y := fun y hy h => here (down now y (first y hy) h)
      exact ⟨rfl, by simp, by simpa [here] using past⟩

variable {K : Type} [Field K] [LinearOrder K] [IsStrictOrderedRing K]

namespace Plan

variable (q : Plan K)

/-- Tokens flow in over time and spill at the brim. -/
def grow (tokens elapsed : K) : K := min q.capacity (tokens + elapsed * q.refill)

/-- What the bucket holds at a reading; a reading before the latest one adds nothing. -/
def refilled (b : Bucket K) (now : K) : K := q.grow b.tokens (max 0 (now - b.updated))

def draw : Handler (Bucket K) K Bool := fun b now =>
  if 1 ≤ q.refilled b now then (true, ⟨q.refilled b now - 1, now⟩)
  else (false, ⟨q.refilled b now, now⟩)

def full (now : K) : Bucket K := ⟨q.capacity, now⟩

/-- A bucket comes into being, full, when it is first drawn from. -/
def lazy : Handler (Option (Bucket K)) K Bool := fun b now =>
  ((q.draw (b.getD (q.full now)) now).1, some (q.draw (b.getD (q.full now)) now).2)

def drawn (b : Bucket K) (readings : List K) : ℕ :=
  (answers q.draw b readings).countP fun a => a.2

/-- No bucket is overdrawn or overfull. -/
def Within (b : Bucket K) : Prop := 0 ≤ b.tokens ∧ b.tokens ≤ q.capacity

end Plan

/-- The sum of all steps upwards along a path of readings. -/
def climb (start : K) : List K → K
  | [] => 0
  | reading :: rest => max 0 (reading - start) + climb reading rest

variable {q : Plan K} {b : Bucket K} {now : K} {readings : List K}

section Growth

variable {tokens less elapsed more : K}

theorem grow_le_capacity : q.grow tokens elapsed ≤ q.capacity := min_le_left _ _

theorem grow_le : q.grow tokens elapsed ≤ tokens + elapsed * q.refill := min_le_right _ _

theorem le_grow (within : tokens ≤ q.capacity) (nonneg : 0 ≤ elapsed) :
    tokens ≤ q.grow tokens elapsed := by
  have flow := mul_nonneg nonneg q.refill_pos.le
  exact le_min within (by linarith)

theorem grow_zero (within : tokens ≤ q.capacity) : q.grow tokens 0 = tokens := by
  simp [Plan.grow, within]

theorem grow_of_le (room : tokens + elapsed * q.refill ≤ q.capacity) :
    q.grow tokens elapsed = tokens + elapsed * q.refill := min_eq_right room

theorem grow_full (enough : q.capacity ≤ tokens + elapsed * q.refill) :
    q.grow tokens elapsed = q.capacity := min_eq_left enough

theorem grow_grow (nonneg : 0 ≤ more) :
    q.grow (q.grow tokens elapsed) more = q.grow tokens (elapsed + more) := by
  have flow := mul_nonneg nonneg q.refill_pos.le
  obtain h | h := le_total q.capacity (tokens + elapsed * q.refill)
  · rw [grow_full h, grow_full (by linarith), grow_full (by linarith)]
  · rw [grow_of_le h, Plan.grow, Plan.grow]
    congr 1
    ring

end Growth

section Draw

@[simp] theorem draw_updated : (q.draw b now).2.updated = now := by
  unfold Plan.draw
  split <;> rfl

theorem draw_allowed : (q.draw b now).1 = true ↔ 1 ≤ q.refilled b now := by
  unfold Plan.draw
  split <;> simp_all

theorem draw_denied : (q.draw b now).1 = false ↔ q.refilled b now < 1 := by
  rw [← Bool.not_eq_true, draw_allowed, not_le]

theorem draw_of_refilled {c : Bucket K} (h : q.refilled b now = q.refilled c now) :
    q.draw b now = q.draw c now := by
  rw [Plan.draw, Plan.draw, h]

theorem draw_tokens_of_allowed (h : (q.draw b now).1 = true) :
    (q.draw b now).2.tokens = q.refilled b now - 1 := by
  rw [draw_allowed] at h
  simp [Plan.draw, h]

theorem draw_tokens_of_denied (h : (q.draw b now).1 = false) :
    (q.draw b now).2.tokens = q.refilled b now := by
  rw [draw_denied] at h
  simp [Plan.draw, not_le.mpr h]

theorem draw_conserves (q : Plan K) (b : Bucket K) (now : K) :
    (if (q.draw b now).1 then 1 else 0) + (q.draw b now).2.tokens =
    q.refilled b now := by
  by_cases h : (q.draw b now).1
  · rw [if_pos h, draw_tokens_of_allowed h]
    ring
  · rw [if_neg h, draw_tokens_of_denied (by simpa using h)]
    ring

theorem refilled_le (q : Plan K) (b : Bucket K) (now : K) :
    q.refilled b now ≤ b.tokens + max 0 (now - b.updated) * q.refill := grow_le

theorem refilled_nonneg (h : q.Within b) : 0 ≤ q.refilled b now :=
  h.1.trans (le_grow h.2 (le_max_left _ _))

theorem draw_within (h : q.Within b) : q.Within (q.draw b now).2 := by
  have held := draw_conserves q b now
  have nonneg : 0 ≤ q.refilled b now := refilled_nonneg h
  have le : q.refilled b now ≤ q.capacity := grow_le_capacity
  by_cases allowed : (q.draw b now).1
  · have one := draw_allowed.mp allowed
    rw [if_pos allowed] at held
    constructor <;> linarith
  · rw [if_neg allowed] at held
    constructor <;> linarith

theorem after_within (h : q.Within b) : q.Within (after q.draw b readings) :=
  after_keeps (fun _ _ => draw_within) h readings

theorem full_within : q.Within (q.full now) := by
  have := q.one_le_capacity
  exact ⟨by simp only [Plan.full]; linarith, le_rfl⟩

theorem refilled_full : q.refilled (q.full now) now = q.capacity := by
  simp [Plan.refilled, Plan.full, grow_zero]

end Draw

section Lazy

@[simp] theorem answers_lazy_some :
    answers q.lazy (some b) readings = answers q.draw b readings := by
  induction readings generalizing b with
  | nil => rfl
  | cons now readings ih => simp [Plan.lazy, ih]

@[simp] theorem after_lazy_some :
    after q.lazy (some b) readings = some (after q.draw b readings) := by
  induction readings generalizing b with
  | nil => rfl
  | cons now readings ih => exact ih

theorem answers_lazy_none : answers q.lazy none (now :: readings) =
    answers q.draw (q.full now) (now :: readings) := by
  rw [← answers_lazy_some]
  rfl

end Lazy

section Potential

theorem climb_nonneg (start : K) (readings : List K) : 0 ≤ climb start readings := by
  induction readings generalizing start with
  | nil => rfl
  | cons now readings ih => exact add_nonneg (le_max_left _ _) (ih now)

@[simp] theorem drawn_nil : q.drawn b [] = 0 := rfl

theorem drawn_cons : (q.drawn b (now :: readings) : K) =
    (if (q.draw b now).1 then 1 else 0) + q.drawn (q.draw b now).2 readings := by
  rw [Plan.drawn, answers_cons, List.countP_cons]
  push_cast
  rw [add_comm]
  rfl

theorem drawn_add_tokens_le (b : Bucket K) (readings : List K) :
    q.drawn b readings + (after q.draw b readings).tokens ≤
      b.tokens + climb b.updated readings * q.refill := by
  induction readings generalizing b with
  | nil => simp [climb]
  | cons now readings ih =>
    have rest := ih (q.draw b now).2
    have here := draw_conserves q b now
    have inflow := refilled_le q b now
    rw [draw_updated] at rest
    rw [drawn_cons, after_cons, climb, add_mul]
    linarith

/-- Nothing spills from a bucket with room for all that can still flow in. -/
theorem drawn_add_tokens_eq (b : Bucket K) (readings : List K)
    (room : b.tokens + climb b.updated readings * q.refill ≤ q.capacity) :
    q.drawn b readings + (after q.draw b readings).tokens =
      b.tokens + climb b.updated readings * q.refill := by
  induction readings generalizing b with
  | nil => simp [climb]
  | cons now readings ih =>
    have later := mul_nonneg (climb_nonneg now readings) q.refill_pos.le
    rw [climb, add_mul] at room
    have here := draw_conserves q b now
    have inflow : q.refilled b now = b.tokens + max 0 (now - b.updated) * q.refill :=
      grow_of_le (by linarith)
    have taken : (q.draw b now).2.tokens ≤ q.refilled b now := by
      rw [← here]
      split <;> linarith
    have rest := ih (q.draw b now).2 (by rw [draw_updated]; linarith)
    rw [draw_updated] at rest
    rw [drawn_cons, after_cons, climb, add_mul]
    linarith

theorem drawn_le (within : q.Within b) (now : K) (readings : List K) :
    q.drawn b (now :: readings) ≤ q.capacity + climb now readings * q.refill := by
  have rest : q.drawn (q.draw b now).2 readings + (after q.draw (q.draw b now).2 readings).tokens ≤
      (q.draw b now).2.tokens + climb (q.draw b now).2.updated readings * q.refill :=
    drawn_add_tokens_le _ readings
  have kept : q.Within (after q.draw (q.draw b now).2 readings) := after_within (draw_within within)
  have nonneg := kept.1
  have here := draw_conserves q b now
  have le : q.refilled b now ≤ q.capacity := grow_le_capacity
  rw [draw_updated] at rest
  rw [drawn_cons]
  linarith

end Potential

section Ordered

variable {s t : K}

theorem climb_le_of_ordered (ordered : (now :: readings).Pairwise (· ≤ ·))
    (upTo : ∀ r ∈ now :: readings, r ≤ t) : climb now readings ≤ t - now := by
  induction readings generalizing now with
  | nil => simpa [climb] using upTo
  | cons next readings ih =>
    obtain ⟨first, ordered⟩ := List.pairwise_cons.mp ordered
    have rest := ih ordered fun r hr => upTo r (List.mem_cons_of_mem _ hr)
    have step : now ≤ next := first next (by simp)
    rw [climb, max_eq_right (by linarith)]
    linarith

/-- However the readings fall, a window of time lets through one full bucket and what flows
in while it lasts. -/
theorem drawn_in_window (within : q.Within b) (ordered : readings.Pairwise (· ≤ ·))
    (le : s ≤ t) : ((answers q.draw b readings).countP fun a => a.2 ∧ s ≤ a.1 ∧ a.1 ≤ t : K) ≤
      q.capacity + (t - s) * q.refill := by
  have outside (c : Bucket K) (l : List K) (out : ∀ r ∈ l, ¬(s ≤ r ∧ r ≤ t)) :
      ((answers q.draw c l).countP fun a => a.2 ∧ s ≤ a.1 ∧ a.1 ≤ t) = 0 := by
    apply List.countP_eq_zero.mpr
    intro a ha inside
    simp only [decide_eq_true_eq] at inside
    exact out _ (call_of_answer ha) inside.2
  have span := mul_nonneg (sub_nonneg.mpr le) q.refill_pos.le
  have brim := q.one_le_capacity
  have downLt (x y : K) (h : x ≤ y) (hy : y < s) : x < s := lt_of_le_of_lt h hy
  have downLe (x y : K) (h : x ≤ y) (hy : y ≤ t) : x ≤ t := h.trans hy
  obtain ⟨before, rest, rfl, early, notEarly⟩ := exists_cut downLt ordered
  have ordered := (List.pairwise_append.mp ordered).2.1
  obtain ⟨inside, later, rfl, upTo, late⟩ := exists_cut downLe ordered
  have ordered := (List.pairwise_append.mp ordered).1
  rw [answers_append, answers_append, List.countP_append, List.countP_append,
    outside _ before (fun r hr h => absurd (early r hr) (not_lt.mpr h.1)),
    outside _ later (fun r hr h => late r hr h.2), zero_add, add_zero]
  cases inside with
  | nil =>
    simp only [answers_nil, List.countP_nil, Nat.cast_zero]
    linarith
  | cons now inside =>
    have kept : q.Within (after q.draw b before) := after_within within
    have counted : ((answers q.draw (after q.draw b before) (now :: inside)).countP
        fun a => a.2 ∧ s ≤ a.1 ∧ a.1 ≤ t) ≤ q.drawn (after q.draw b before) (now :: inside) := by
      apply List.countP_mono_left
      intro a _ h
      simp only [decide_eq_true_eq] at h
      exact h.1
    have started : s ≤ now := not_lt.mp (notEarly now (by simp))
    have climbed := climb_le_of_ordered ordered upTo
    have flow : climb now inside * q.refill ≤ (t - s) * q.refill :=
      mul_le_mul_of_nonneg_right (by linarith) q.refill_pos.le
    calc ((answers q.draw (after q.draw b before) (now :: inside)).countP
          fun a => a.2 ∧ s ≤ a.1 ∧ a.1 ≤ t : K)
        ≤ q.drawn (after q.draw b before) (now :: inside) := by exact_mod_cast counted
      _ ≤ q.capacity + climb now inside * q.refill := drawn_le kept now inside
      _ ≤ q.capacity + (t - s) * q.refill := by linarith

/-- Denied draws leave the future as it was. -/
theorem refilled_after_denials (ordered : (b.updated :: readings).Pairwise (· ≤ ·))
    (upTo : ∀ r ∈ b.updated :: readings, r ≤ now)
    (denied : ∀ a ∈ answers q.draw b readings, a.2 = false) :
    q.refilled (after q.draw b readings) now = q.refilled b now := by
  induction readings generalizing b with
  | nil => rfl
  | cons r readings ih =>
    obtain ⟨first, ordered⟩ := List.pairwise_cons.mp ordered
    have le : b.updated ≤ r := first r (by simp)
    have soon : r ≤ now := upTo r (by simp)
    have here : (q.draw b r).1 = false := denied (r, (q.draw b r).1) (by simp)
    rw [after_cons, ih (by simpa using ordered)
      (by intro x hx; exact upTo x (List.mem_cons_of_mem _ (by simpa using hx)))
      (by intro a ha; exact denied a (List.mem_cons_of_mem _ ha))]
    rw [Plan.refilled, draw_tokens_of_denied here, draw_updated, Plan.refilled, Plan.refilled,
      max_eq_right (sub_nonneg.mpr soon), max_eq_right (sub_nonneg.mpr le),
      max_eq_right (sub_nonneg.mpr (le.trans soon)), grow_grow (sub_nonneg.mpr soon)]
    congr 1
    ring

theorem one_le_grow {tokens elapsed : K} :
    1 ≤ q.grow tokens elapsed ↔ (1 - tokens) / q.refill ≤ elapsed := by
  rw [div_le_iff₀ q.refill_pos, Plan.grow, le_min_iff]
  constructor
  · intro h
    linarith [h.2]
  · intro h
    exact ⟨q.one_le_capacity, by linarith⟩

theorem one_le_refilled_after_denials {t : K} (first : (q.draw b t).1 = false)
    (ordered : (t :: readings).Pairwise (· ≤ ·)) (upTo : ∀ r ∈ t :: readings, r ≤ now)
    (denied : ∀ a ∈ answers q.draw (q.draw b t).2 readings, a.2 = false) :
    1 ≤ q.refilled (after q.draw (q.draw b t).2 readings) now ↔
      (1 - q.refilled b t) / q.refill ≤ now - t := by
  have elapsed : 0 ≤ now - t := sub_nonneg.mpr (upTo t (by simp))
  rw [refilled_after_denials (by simpa using ordered) (by simpa using upTo) denied,
    Plan.refilled, draw_updated, draw_tokens_of_denied first, max_eq_right elapsed, one_le_grow]

theorem refilled_idle (within : q.Within b) (idle : q.capacity / q.refill ≤ now - b.updated) :
    q.refilled b now = q.capacity := by
  have enough := (div_le_iff₀ q.refill_pos).mp idle
  have more := mul_le_mul_of_nonneg_right (le_max_right 0 (now - b.updated)) q.refill_pos.le
  exact grow_full (by linarith [within.1])

end Ordered

end PySwitch.TokenBucket
