import PySwitch.TokenBucket

namespace PySwitch.TokenBucket

open Serial

/-- The readings of a path, each of them taken once or several times in a row. -/
inductive Stutters {α : Type} : List α → List α → Prop where
  | done : Stutters [] []
  | next {path readings : List α} (now : α) :
      Stutters path readings → Stutters (now :: path) (now :: readings)
  | again {path readings : List α} {now : α} :
      Stutters (now :: path) readings → Stutters (now :: path) (now :: readings)

namespace Stutters

variable {α : Type} {path readings : List α} {now last : α}

theorem refl (path : List α) : Stutters path path := by
  induction path with
  | nil => exact .done
  | cons now path ih => exact .next now ih

theorem more_first (h : Stutters (now :: path) readings) (n : ℕ) :
    Stutters (now :: path) (List.replicate n now ++ readings) := by
  induction n with
  | zero => exact h
  | succ n ih => exact .again ih

theorem more_last (n : ℕ) :
    Stutters (path ++ [last]) ((path ++ [last]) ++ List.replicate n last) := by
  induction path with
  | nil =>
    rw [List.nil_append, List.singleton_append, ← List.replicate_succ, List.replicate_succ',
      ← List.append_nil [last]]
    exact more_first (refl _) n
  | cons now path ih => exact .next now ih

theorem foldr_eq {f : α → α → α} (idem : ∀ x y, f x (f x y) = f x y)
    (h : Stutters path readings) (x : α) : readings.foldr f x = path.foldr f x := by
  induction h with
  | done => rfl
  | next now _ ih => rw [List.foldr_cons, List.foldr_cons, ih]
  | again _ ih => rw [List.foldr_cons, ih, List.foldr_cons, idem]

end Stutters

variable {K : Type} [Field K] [LinearOrder K]

/-- All steps upwards along a path together. -/
def climbed : List K → K
  | [] => 0
  | first :: rest => climb first rest

/-- The largest reading less the smallest one. -/
def spread : List K → K
  | [] => 0
  | first :: rest => rest.foldr max first - rest.foldr min first

variable {path readings : List K} {now t first : K}

theorem climb_stutters (h : Stutters path readings) (start : K) :
    climb start readings = climb start path := by
  induction h generalizing start with
  | done => rfl
  | next now _ ih => rw [climb, climb, ih]
  | again _ ih =>
    rw [climb, ih, climb, climb]
    simp

theorem climb_self (first : K) (rest : List K) :
    climb first (first :: rest) = climb first rest := by
  simp [climb]

theorem climb_replicate (n : ℕ) : climb t (List.replicate n t) = 0 := by
  induction n with
  | zero => rfl
  | succ n ih => simp [List.replicate_succ, climb, ih]

theorem climbed_stutters (h : Stutters path readings) : climbed readings = climbed path := by
  cases h with
  | done => rfl
  | next now h => exact climb_stutters h now
  | again h => rw [climbed, climb_stutters h, climb_self, climbed]

omit [Field K] in
theorem foldr_max_self (rest : List K) : max first (rest.foldr max first) = rest.foldr max first := by
  apply max_eq_right
  induction rest with
  | nil => rfl
  | cons now rest ih => exact ih.trans (le_max_right _ _)

omit [Field K] in
theorem foldr_min_self (rest : List K) : min first (rest.foldr min first) = rest.foldr min first := by
  apply min_eq_right
  induction rest with
  | nil => rfl
  | cons now rest ih => exact (min_le_right _ _).trans ih

theorem spread_stutters (h : Stutters path readings) : spread readings = spread path := by
  have top := h.foldr_eq (f := max) fun x y => by simp
  have bottom := h.foldr_eq (f := min) fun x y => by simp
  cases h with
  | done => rfl
  | next now h =>
    have top := top now
    have bottom := bottom now
    rw [List.foldr_cons, foldr_max_self, List.foldr_cons, foldr_max_self] at top
    rw [List.foldr_cons, foldr_min_self, List.foldr_cons, foldr_min_self] at bottom
    rw [spread, spread, top, bottom]
  | @again path _ now h =>
    have top := top now
    have bottom := bottom now
    rw [List.foldr_cons, foldr_max_self, List.foldr_cons, foldr_max_self] at top
    rw [List.foldr_cons, foldr_min_self, List.foldr_cons, foldr_min_self] at bottom
    rw [spread, spread, top, bottom]

section Drain

variable [IsStrictOrderedRing K] {q : Plan K} {b : Bucket K}

theorem refilled_same (within : b.tokens ≤ q.capacity) : q.refilled b b.updated = b.tokens := by
  simp [Plan.refilled, grow_zero within]

theorem draw_same_of_enough (within : b.tokens ≤ q.capacity) (enough : 1 ≤ b.tokens) :
    q.draw b b.updated = (true, ⟨b.tokens - 1, b.updated⟩) := by
  rw [Plan.draw, refilled_same within, if_pos enough]

theorem draw_same_of_short (within : b.tokens ≤ q.capacity) (short : b.tokens < 1) :
    q.draw b b.updated = (false, b) := by
  rw [Plan.draw, refilled_same within, if_neg (not_le.mpr short)]

/-- As many calls as there are tokens, all at one time, leave none. -/
theorem drain_whole (n : ℕ) (room : (n : K) ≤ q.capacity) :
    after q.draw ⟨n, t⟩ (List.replicate n t) = ⟨0, t⟩ := by
  induction n with
  | zero => simp
  | succ n ih =>
    push_cast at room
    have some_ : (0 : K) ≤ n := Nat.cast_nonneg n
    have drawn := draw_same_of_enough (b := ⟨((n + 1 : ℕ) : K), t⟩) (q := q)
      (by push_cast; exact room) (by push_cast; linarith)
    have less : ((n + 1 : ℕ) : K) - 1 = n := by
      push_cast
      ring
    rw [List.replicate_succ, after_cons, drawn, less]
    exact ih (by linarith)

/-- Enough calls at one time leave less than one token. -/
theorem drain_rest (n : ℕ) {b : Bucket K} (within : b.tokens ≤ q.capacity)
    (few : b.tokens < n + 1) : (after q.draw b (List.replicate n b.updated)).tokens < 1 := by
  induction n generalizing b with
  | zero => simpa using few
  | succ n ih =>
    push_cast at few
    rw [List.replicate_succ, after_cons]
    obtain enough | short := le_or_gt 1 b.tokens
    · rw [draw_same_of_enough within enough]
      apply @ih ⟨b.tokens - 1, b.updated⟩
      · simp only
        linarith
      · simp only
        linarith
    · rw [draw_same_of_short within short]
      apply ih within
      have := Nat.cast_nonneg (α := K) n
      linarith

theorem drawn_append (early late : List K) :
    q.drawn b (early ++ late) = q.drawn b early + q.drawn (after q.draw b early) late := by
  rw [Plan.drawn, answers_append, List.countP_append]
  rfl

end Drain

section Overdraft

variable [IsStrictOrderedRing K] {q : Plan K}

theorem after_updated (b : Bucket K) (early : List K) (last : K) :
    (after q.draw b (early ++ [last])).updated = last := by
  rw [after_append]
  exact draw_updated

/-- Draining the bucket at the first reading and once more at the last one hands out nearly
all that flows in on the way up. -/
theorem drawn_draining {rest early : List K} {first last : K} {n : ℕ}
    (path : first :: rest = early ++ [last]) (full : q.capacity = n)
    (room : climb first rest * q.refill ≤ n) :
    n + climb first rest * q.refill - 1 <
      q.drawn (q.full first)
        (List.replicate n first ++ ((first :: rest) ++ List.replicate n last)) := by
  have started : q.full first = ⟨n, first⟩ := by rw [Plan.full, full]
  have drained := drain_whole (q := q) (t := first) n full.ge
  have begun := drawn_add_tokens_eq (q := q) ⟨n, first⟩ (List.replicate n first)
    (by simp [climb_replicate, full])
  have along := climb_stutters (path ▸ Stutters.more_last n :
    Stutters (first :: rest) ((first :: rest) ++ List.replicate n last)) first
  rw [climb_self] at along
  have went := drawn_add_tokens_eq (q := q) ⟨0, first⟩
    ((first :: rest) ++ List.replicate n last) (by rw [full]; simpa only [along, zero_add] using room)
  have held : q.Within (after q.draw ⟨0, first⟩ (first :: rest)) :=
    after_within ⟨le_rfl, zero_le_one.trans q.one_le_capacity⟩
  have ended : (after q.draw ⟨0, first⟩ (first :: rest)).updated = last := by
    rw [path, after_updated]
  have few := drain_rest (q := q) n held.2 (by linarith [held.2])
  rw [ended, ← after_append] at few
  rw [started, drawn_append, drained]
  rw [drained, climb_replicate] at begun
  rw [along] at went
  push_cast
  simp only at begun went few
  linarith

end Overdraft

end PySwitch.TokenBucket
