import PySwitch.RateLimit

namespace PySwitch.InMemoryTokenBucketLimiter

open Serial TokenBucket

variable {K : Type} [Field K] [LinearOrder K] [FloorRing K] {l : InMemoryTokenBucketLimiter K}

def decision (l : InMemoryTokenBucketLimiter K) (tokens : K) : RateLimitDecision :=
  if 1 ≤ tokens then ⟨true, l.capacity, ⌊tokens - 1⌋, 0⟩
  else ⟨false, l.capacity, 0, max 1 ⌈(1 - tokens) / l.refillPerSecond⌉⟩

theorem decision_allowed {tokens : K} : (l.decision tokens).allowed = true ↔ 1 ≤ tokens := by
  unfold decision
  split <;> simp_all

theorem decision_denied {tokens : K} : (l.decision tokens).allowed = false ↔ tokens < 1 := by
  rw [← Bool.not_eq_true, decision_allowed, not_le]

theorem decision_retryAfter {tokens : K} (h : tokens < 1) :
    (l.decision tokens).retryAfterSeconds = max 1 ⌈(1 - tokens) / l.refillPerSecond⌉ := by
  rw [decision, if_neg (not_le.mpr h)]

variable [IsStrictOrderedRing K]

/-- The settings are those of a plan. -/
structure Follows (l : InMemoryTokenBucketLimiter K) (q : Plan K) : Prop where
  capacity : (l.capacity : K) = q.capacity
  refill : l.refillPerSecond = q.refill

omit [FloorRing K] [IsStrictOrderedRing K] in
theorem make_eq_ok {capacity : ℤ} {refillPerSecond : K} : make capacity refillPerSecond = .ok l ↔
    1 ≤ capacity ∧ 0 < refillPerSecond ∧ l = ⟨capacity, refillPerSecond⟩ := by
  unfold make
  split
  · rename_i h
    simp only [reduceCtorEq, false_iff]
    rintro ⟨one_le, positive, -⟩
    obtain h | h := h
    · omega
    · exact absurd positive (not_lt.mpr h)
  · rename_i h
    push Not at h
    simp [h, eq_comm]

omit [FloorRing K] in
theorem plan_of_make {capacity : ℤ} {refillPerSecond : K}
    (made : make capacity refillPerSecond = .ok l) :
    ∃ q : Plan K, l.Follows q ∧ (capacity : K) = q.capacity ∧ refillPerSecond = q.refill := by
  obtain ⟨one_le, positive, rfl⟩ := make_eq_ok.mp made
  have one_le : (1 : K) ≤ capacity := by exact_mod_cast one_le
  exact ⟨⟨capacity, refillPerSecond, one_le, positive⟩, ⟨rfl, rfl⟩, rfl, rfl⟩

/-- The limiter at the bucket of one merchant. -/
def serve (l : InMemoryTokenBucketLimiter K) (q : Plan K) :
    Handler (Option (Bucket K)) (Consume K) RateLimitDecision := fun b call =>
  (l.decision (q.refilled (b.getD (q.full call.now)) call.now), (q.lazy b call.now).2)

theorem consume_eq {q : Plan K} (follows : l.Follows q) :
    l.consume = keyed Consume.merchantId (l.serve q) := by
  funext buckets call
  unfold consume keyed serve decision Plan.lazy Plan.draw Plan.refilled Plan.grow Plan.full
  rw [follows.capacity, follows.refill]
  simp only
  split <;> rfl

theorem lazy_eq_serve {q : Plan K} (b : Option (Bucket K)) (call : Consume K) :
    q.lazy b call.now = ((l.serve q b call).1.allowed, (l.serve q b call).2) := by
  apply Prod.ext
  · rw [Bool.eq_iff_iff]
    exact draw_allowed.trans decision_allowed.symm
  · rfl

/-- What a merchant's bucket is drawn from is what the limiter decides for that merchant. -/
theorem draws_eq {q : Plan K} (follows : l.Follows q) (buckets : MemoryBuckets K)
    (calls : List (Consume K)) (merchant : String) :
    answers q.lazy (buckets merchant)
        ((calls.filter fun c => c.merchantId = merchant).map Consume.now) =
      ((answers l.consume buckets calls).filter fun a => a.1.merchantId = merchant).map
        (Prod.map Consume.now RateLimitDecision.allowed) := by
  rw [consume_eq follows, answers_keyed]
  exact (answers_map lazy_eq_serve).symm

/-- The calls of a merchant that are let through in a window of time. -/
def allowedIn (l : InMemoryTokenBucketLimiter K) (calls : List (Consume K)) (merchant : String)
    (s t : K) : ℕ :=
  (answers l.consume (fun _ => none) calls).countP fun a =>
    a.1.merchantId = merchant ∧ a.2.allowed ∧ s ≤ a.1.now ∧ a.1.now ≤ t

theorem allowedIn_eq {q : Plan K} (follows : l.Follows q) (calls : List (Consume K))
    (merchant : String) (s t : K) : l.allowedIn calls merchant s t =
      (answers q.lazy none ((calls.filter fun c => c.merchantId = merchant).map Consume.now)).countP
        fun a => a.2 ∧ s ≤ a.1 ∧ a.1 ≤ t := by
  rw [draws_eq follows (fun _ => none), List.countP_map, List.countP_filter, allowedIn]
  apply List.countP_congr
  intro a _
  simp only [Function.comp_apply, Prod.map_fst, Prod.map_snd, decide_eq_true_eq,
    Bool.and_eq_true]
  tauto

theorem allowedIn_le {q : Plan K} (follows : l.Follows q) {calls : List (Consume K)}
    (ordered : calls.Pairwise fun a b => a.now ≤ b.now) (merchant : String) {s t : K}
    (le : s ≤ t) : (l.allowedIn calls merchant s t : K) ≤ q.capacity + (t - s) * q.refill := by
  rw [allowedIn_eq follows]
  have ordered : ((calls.filter fun c => c.merchantId = merchant).map Consume.now).Pairwise
      (· ≤ ·) := List.pairwise_map.mpr (ordered.sublist List.filter_sublist)
  generalize (calls.filter fun c => c.merchantId = merchant).map Consume.now = readings at ordered
  cases readings with
  | nil =>
    have span := mul_nonneg (sub_nonneg.mpr le) q.refill_pos.le
    have brim := q.one_le_capacity
    simp only [answers_nil, List.countP_nil, Nat.cast_zero]
    linarith
  | cons now readings =>
    rw [answers_lazy_none]
    exact drawn_in_window full_within ordered le

/-- One merchant's calls are decided as if nobody else called. -/
theorem answers_alone {q : Plan K} (follows : l.Follows q) (calls : List (Consume K))
    (merchant : String) :
    ((answers l.consume (fun _ => none) calls).filter fun a => a.1.merchantId = merchant) =
      answers l.consume (fun _ => none) (calls.filter fun c => c.merchantId = merchant) := by
  have all : ∀ a ∈ answers l.consume (fun _ => none)
      (calls.filter fun c => c.merchantId = merchant), a.1.merchantId = merchant := by
    intro a ha
    simpa using (List.mem_filter.mp (call_of_answer ha)).2
  calc ((answers l.consume (fun _ => none) calls).filter fun a => a.1.merchantId = merchant)
      = answers (l.serve q) none (calls.filter fun c => c.merchantId = merchant) := by
        rw [consume_eq follows, answers_keyed]
    _ = (answers l.consume (fun _ => none) (calls.filter fun c => c.merchantId = merchant)).filter
          fun a => a.1.merchantId = merchant := by
        rw [consume_eq follows, answers_keyed, List.filter_filter]
        simp
    _ = _ := List.filter_eq_self.mpr (by simpa using all)

theorem window_bound {capacity : ℤ} {refillPerSecond : K}
    (made : make capacity refillPerSecond = .ok l) {calls : List (Consume K)}
    (ordered : calls.Pairwise fun a b => a.now ≤ b.now) (merchant : String) :
    (∀ s t : K, s ≤ t →
      (l.allowedIn calls merchant s t : K) ≤ capacity + refillPerSecond * (t - s)) ∧
    ((answers l.consume (fun _ => none) calls).filter fun a => a.1.merchantId = merchant) =
      answers l.consume (fun _ => none) (calls.filter fun c => c.merchantId = merchant) := by
  obtain ⟨q, follows, capacityEq, refillEq⟩ := plan_of_make made
  constructor
  · intro s t le
    rw [capacityEq, refillEq, mul_comm]
    exact allowedIn_le follows ordered merchant le
  · exact answers_alone follows calls merchant

theorem window_bound_of_two :
    let l : InMemoryTokenBucketLimiter ℚ := ⟨1, 1⟩
    let calls := [⟨"a", 0⟩, ⟨"b", 0⟩, ⟨"a", 1 / 2⟩, ⟨"a", 1⟩]
    (∀ s t : ℚ, s ≤ t → (l.allowedIn calls "a" s t : ℚ) ≤ (1 : ℤ) + 1 * (t - s)) ∧
    ((answers l.consume (fun _ => none) calls).filter fun a => a.1.merchantId = "a") =
      answers l.consume (fun _ => none) (calls.filter fun c => c.merchantId = "a") :=
  window_bound (make_eq_ok.mpr (by norm_num)) (by decide +kernel) "a"

section RetryAfter

variable {q : Plan K} {merchant : String} {t now : K}

theorem consume_fst (follows : l.Follows q) (buckets : MemoryBuckets K) (call : Consume K) :
    (l.consume buckets call).1 =
      l.decision (q.refilled ((buckets call.merchantId).getD (q.full call.now)) call.now) := by
  rw [consume_eq follows]
  rfl

theorem after_consume (follows : l.Follows q) (buckets : MemoryBuckets K)
    (calls : List (Consume K)) (merchant : String) :
    after l.consume buckets calls merchant = after q.lazy (buckets merchant)
      ((calls.filter fun c => c.merchantId = merchant).map Consume.now) := by
  rw [consume_eq follows, after_keyed]
  exact after_map fun _ _ => rfl

/-- Whatever was called before, a merchant's bucket is neither overdrawn nor overfull. -/
theorem reached_within (follows : l.Follows q) (past : List (Consume K)) :
    q.Within ((after l.consume (fun _ => none) past merchant).getD (q.full t)) := by
  rw [after_consume follows]
  generalize (past.filter fun c => c.merchantId = merchant).map Consume.now = readings
  cases readings with
  | nil => exact full_within
  | cons first readings =>
    rw [after_cons, Plan.lazy, after_lazy_some]
    exact after_within (draw_within full_within)

theorem allowed_after_denials (follows : l.Follows q) {buckets : MemoryBuckets K}
    {further : List (Consume K)}
    (denied : (l.consume buckets ⟨merchant, t⟩).1.allowed = false)
    (ordered : (t :: further.map Consume.now).Pairwise (· ≤ ·))
    (upTo : ∀ r ∈ t :: further.map Consume.now, r ≤ now)
    (still : ∀ a ∈ answers l.consume (l.consume buckets ⟨merchant, t⟩).2 further,
      a.1.merchantId = merchant → a.2.allowed = false) :
    (l.consume (after l.consume (l.consume buckets ⟨merchant, t⟩).2 further)
      ⟨merchant, now⟩).1.allowed = true ↔
      (1 - q.refilled ((buckets merchant).getD (q.full t)) t) / q.refill ≤ now - t := by
  have first : (q.draw ((buckets merchant).getD (q.full t)) t).1 = false := by
    rw [consume_fst follows, decision_denied] at denied
    exact draw_denied.mpr denied
  have left : (l.consume buckets ⟨merchant, t⟩).2 merchant =
      some (q.draw ((buckets merchant).getD (q.full t)) t).2 := by
    rw [consume_eq follows]
    exact keyed_same _
  have own : ((further.filter fun c => c.merchantId = merchant).map Consume.now).Sublist
      (further.map Consume.now) := List.filter_sublist.map _
  rw [consume_fst follows, decision_allowed, after_consume follows, left, after_lazy_some,
    Option.getD_some]
  apply one_le_refilled_after_denials first (ordered.sublist (own.cons_cons t))
  · intro r hr
    exact upTo r ((own.cons_cons t).subset hr)
  · intro a ha
    rw [← answers_lazy_some, ← left, draws_eq follows] at ha
    obtain ⟨decided, mem, rfl⟩ := List.mem_map.mp ha
    obtain ⟨mem, its⟩ := List.mem_filter.mp mem
    exact still decided mem (by simpa using its)

theorem retry_after_exact {capacity : ℤ} {refillPerSecond : K}
    (made : make capacity refillPerSecond = .ok l) (past further : List (Consume K))
    (merchant : String) (t now : K)
    (denied : (l.consume (after l.consume (fun _ => none) past) ⟨merchant, t⟩).1.allowed = false)
    (ordered : (t :: further.map Consume.now).Pairwise (· ≤ ·))
    (upTo : ∀ r ∈ t :: further.map Consume.now, r ≤ now)
    (still : ∀ a ∈ answers l.consume
      (l.consume (after l.consume (fun _ => none) past) ⟨merchant, t⟩).2 further,
      a.1.merchantId = merchant → a.2.allowed = false) :
    let first := l.consume (after l.consume (fun _ => none) past) ⟨merchant, t⟩
    let next := l.consume (after l.consume first.2 further) ⟨merchant, now⟩
    (t + first.1.retryAfterSeconds ≤ now → next.1.allowed = true) ∧
      (now < t + first.1.retryAfterSeconds - 1 → next.1.allowed = false) := by
  obtain ⟨q, follows, -, -⟩ := plan_of_make made
  intro first next
  have allowed := allowed_after_denials follows denied ordered upTo still
  have short : q.refilled ((after l.consume (fun _ => none) past merchant).getD (q.full t)) t < 1 := by
    rwa [consume_fst follows, decision_denied] at denied
  have retry : first.1.retryAfterSeconds = max 1 ⌈(1 - q.refilled
      ((after l.consume (fun _ => none) past merchant).getD (q.full t)) t) / q.refill⌉ := by
    rw [← follows.refill, ← decision_retryAfter short]
    exact congrArg RateLimitDecision.retryAfterSeconds (consume_fst follows _ _)
  generalize (1 - q.refilled ((after l.consume (fun _ => none) past merchant).getD (q.full t)) t) /
    q.refill = missing at allowed retry
  have elapsed : t ≤ now := upTo t (by simp)
  rw [retry]
  constructor
  · intro late
    apply allowed.mpr
    have enough : missing ≤ ((max 1 ⌈missing⌉ : ℤ) : K) :=
      (Int.le_ceil missing).trans (by exact_mod_cast le_max_right _ _)
    linarith
  · intro early
    rw [← Bool.not_eq_true]
    intro h
    have soon := allowed.mp h
    obtain waits | waits := le_total ⌈missing⌉ 1
    · rw [max_eq_left waits] at early
      push_cast at early
      linarith
    · rw [max_eq_right waits] at early
      have := Int.ceil_lt_add_one missing
      linarith

theorem retry_after_exact_of_half :
    let l : InMemoryTokenBucketLimiter ℚ := ⟨1, 1⟩
    let first := l.consume (after l.consume (fun _ => none) [⟨"a", 0⟩]) ⟨"a", 1 / 2⟩
    let next := l.consume (after l.consume first.2 [⟨"b", 1 / 2⟩, ⟨"a", 3 / 4⟩]) ⟨"a", 3 / 2⟩
    (1 / 2 + (first.1.retryAfterSeconds : ℚ) ≤ 3 / 2 → next.1.allowed = true) ∧
      (3 / 2 < 1 / 2 + (first.1.retryAfterSeconds : ℚ) - 1 → next.1.allowed = false) := by
  have made : make 1 1 = .ok (⟨1, 1⟩ : InMemoryTokenBucketLimiter ℚ) :=
    make_eq_ok.mpr (by norm_num)
  exact retry_after_exact made [⟨"a", 0⟩] [⟨"b", 1 / 2⟩, ⟨"a", 3 / 4⟩] "a"
    (1 / 2) (3 / 2) (by decide +kernel) (by decide +kernel) (by decide +kernel) (by decide +kernel)

end RetryAfter

end PySwitch.InMemoryTokenBucketLimiter
