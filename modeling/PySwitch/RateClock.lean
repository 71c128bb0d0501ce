import PySwitch.ClockPath
import PySwitch.RateAgreement

namespace PySwitch.RedisTokenBucketLimiter

open Serial TokenBucket

variable {K : Type} [Field K] [LinearOrder K] [FloorRing K] {r : RedisTokenBucketLimiter K}

/-- How many of the calls of one merchant the script lets through, were its key never to
expire. -/
def allowed (r : RedisTokenBucketLimiter K) (readings : List K) : ℕ :=
  (answers r.script {} readings).countP fun a => a.2.head? = some 1

variable [IsStrictOrderedRing K] {q : Plan K}

theorem values_head {tokens : K} : (r.values tokens).head? = some 1 ↔ 1 ≤ tokens := by
  unfold values
  split <;> simp_all

theorem held_fields (b : Bucket K) (now : K) : held q (fields q b) now = b := rfl

theorem allowed_from_fields (follows : r.Follows q) (b : Bucket K) (readings : List K) :
    ((answers r.script (fields q b) readings).countP fun a => a.2.head? = some 1) =
      q.drawn b readings := by
  induction readings generalizing b with
  | nil => rfl
  | cons now readings ih =>
    rw [answers_cons, List.countP_cons, script_eq follows, held_fields, ih, Plan.drawn,
      Plan.drawn, answers_cons, List.countP_cons]
    congr 1
    simp only [values_head, draw_allowed, decide_eq_true_eq]

theorem allowed_eq (follows : r.Follows q) (first : K) (rest : List K) :
    r.allowed (first :: rest) = q.drawn (q.full first) (first :: rest) := by
  rw [allowed, answers_cons, script_eq follows, ← allowed_from_fields follows, answers_cons,
    script_eq follows]
  rfl

theorem allowed_le_climbed (follows : r.Follows q) (readings : List K) :
    (r.allowed readings : K) ≤ q.capacity + q.refill * climbed readings := by
  cases readings with
  | nil =>
    have := q.one_le_capacity
    simp only [allowed, answers_nil, List.countP_nil, Nat.cast_zero, climbed]
    linarith
  | cons first rest =>
    rw [allowed_eq follows, climbed, mul_comm]
    exact drawn_le full_within first rest

/-- Where the clock climbs further than its readings lie apart, some bucket lets through more
than it should. -/
theorem exists_overdraft (sha256 : String → String) {path : List K}
    (more : spread path < climbed path) :
    ∃ (capacity : ℤ) (refill : K) (readings : List K), 1 ≤ capacity ∧ 0 < refill ∧
      Stutters path readings ∧ capacity + refill * spread readings <
        ((RedisTokenBucketLimiter.mk sha256 capacity refill).allowed readings : K) := by
  cases path with
  | nil => simp [spread, climbed] at more
  | cons first rest =>
    obtain ⟨gap, eq⟩ : ∃ gap, gap = climb first rest - spread (first :: rest) := ⟨_, rfl⟩
    have positive : 0 < gap := by
      rw [eq]
      exact sub_pos.mpr more
    obtain ⟨n, enough⟩ := exists_nat_ge (climb first rest * (1 / gap))
    obtain ⟨early, last, path⟩ : ∃ early last, first :: rest = early ++ [last] :=
      ⟨_, _, (List.dropLast_append_getLast (List.cons_ne_nil first rest)).symm⟩
    have one_le : (1 : K) ≤ ((n + 1 : ℕ) : ℤ) := by
      push_cast
      linarith [Nat.cast_nonneg (α := K) n]
    let q : Plan K := ⟨((n + 1 : ℕ) : ℤ), 1 / gap, one_le, one_div_pos.mpr positive⟩
    have full : q.capacity = (n + 1 : ℕ) := by simp [q]
    have along : Stutters (first :: rest) ((first :: rest) ++ List.replicate (n + 1) last) := by
      rw [path]
      exact Stutters.more_last (n + 1)
    have drawn := drawn_draining path full (by push_cast; linarith)
    have flow : climb first rest * q.refill - 1 = 1 / gap * spread (first :: rest) := by
      have unit : 1 / gap * gap = 1 := one_div_mul_cancel positive.ne'
      have split : climb first rest = spread (first :: rest) + gap := by linarith
      rw [split, show q.refill = 1 / gap from rfl]
      linarith
    refine ⟨(n + 1 : ℕ), 1 / gap, _, by exact_mod_cast one_le, one_div_pos.mpr positive,
      along.more_first (n + 1), ?_⟩
    have follows : (RedisTokenBucketLimiter.mk sha256 ((n + 1 : ℕ) : ℤ) (1 / gap)).Follows q :=
      ⟨rfl, rfl⟩
    rw [spread_stutters (along.more_first (n + 1)), List.replicate_succ, List.cons_append,
      allowed_eq follows, ← List.cons_append, ← List.replicate_succ]
    push_cast at drawn ⊢
    linarith

/-- The bound holds for all calls along a path of readings exactly when the clock, on its way,
climbs no further than its readings lie apart. -/
theorem allowed_bound_iff (sha256 : String → String) (path : List K) :
    (∀ (capacity : ℤ) (refill : K) (readings : List K), 1 ≤ capacity → 0 < refill →
      Stutters path readings →
      ((RedisTokenBucketLimiter.mk sha256 capacity refill).allowed readings : K) ≤
        capacity + refill * spread readings) ↔ climbed path ≤ spread path := by
  constructor
  · intro bound
    by_contra more
    obtain ⟨capacity, refill, readings, one_le, positive, along, beyond⟩ :=
      exists_overdraft sha256 (not_le.mp more)
    exact absurd (bound capacity refill readings one_le positive along) (not_le.mpr beyond)
  · intro le capacity refill readings one_le positive along
    have one_le : (1 : K) ≤ capacity := by exact_mod_cast one_le
    have follows : (RedisTokenBucketLimiter.mk sha256 capacity refill).Follows
        (⟨capacity, refill, one_le, positive⟩ : Plan K) := ⟨rfl, rfl⟩
    have bound := allowed_le_climbed follows readings
    have flow : refill * climbed readings ≤ refill * spread readings := by
      rw [climbed_stutters along, spread_stutters along]
      exact mul_le_mul_of_nonneg_left le positive.le
    exact bound.trans (by linarith)

theorem allowed_bound_iff_rising :
    (∀ (capacity : ℤ) (refill : ℚ) (readings : List ℚ), 1 ≤ capacity → 0 < refill →
      Stutters [0, 1, 3] readings →
      ((RedisTokenBucketLimiter.mk id capacity refill).allowed readings : ℚ) ≤
        capacity + refill * spread readings) ↔ climbed [(0 : ℚ), 1, 3] ≤ spread [(0 : ℚ), 1, 3] :=
  allowed_bound_iff id [0, 1, 3]

theorem allowed_over_backward_step :
    ¬(((RedisTokenBucketLimiter.mk id 1 1).allowed [(0 : ℚ), 1, 0, 1] : ℚ) ≤
      1 + 1 * spread [(0 : ℚ), 1, 0, 1]) := by
  decide +kernel

end PySwitch.RedisTokenBucketLimiter
