import PySwitch.SlotInvariant
import Mathlib.Data.Finset.Card

namespace PySwitch.Slots

open Async Scenario

/-- A payment at the provider has started and not ended. -/
def Running (p : Provider) (s : ServiceState) (t : Tid) : Prop :=
  ∃ paymentId, s.At t (.provider (.finishPayment p paymentId))

/-- The task has started a payment at the provider since the state `u`. -/
def Since (p : Provider) (u s : ServiceState) (t : Tid) : Prop :=
  ∃ new paymentId, s.world.log = new ++ u.world.log ∧ .paymentStarted t p paymentId ∈ new

/-- The limit in force for the provider is at most `L`. -/
def Limited (p : Provider) (L : ℕ) (s : ServiceState) : Prop :=
  ∃ n, s.world.process.currentSemaphore p = some n ∧ (s.world.process.semaphores n).limit ≤ L

/-- The payments running since `u` are at most `L`, with room for `more`. -/
def Fits (p : Provider) (more L : ℕ) (u s : ServiceState) : Prop :=
  ∀ F : Finset Tid, F.Nonempty → (∀ t ∈ F, Running p s t ∧ Since p u s t) → F.card + more ≤ L

/-- A stretch of a run over which no limit for the provider is above `L`. -/
def Stretch (cfg : Config) (profile : Profile) (p : Provider) (L : ℕ) (during : List ServiceLabel)
    (u : ServiceState) : Prop :=
  ∀ before v, before <+: during → run (system cfg profile) before u = some v → Limited p L v

section Runs

variable (cfg : Config) (profile : Profile) (p : Provider) (w : World) (ls : List ServiceLabel)

/-- No more payments run at the provider than the largest limit in force since the first of them
began. -/
def Bounded : Prop :=
  ∀ before during u s L, before ++ during <+: ls →
    run (system cfg profile) before (.empty w) = some u →
    run (system cfg profile) during u = some s → Stretch cfg profile p L during u → Fits p 0 L u s

/-- The limit is set when nobody is in line for the provider, and the payments that run there fit,
together with the new limit, under the largest limit in force since the first of them began. -/
def Careful : Prop :=
  ∀ before during u s limit,
    before ++ during ++ [.outside (.setProviderConcurrency p limit)] <+: ls →
    run (system cfg profile) before (.empty w) = some u →
    run (system cfg profile) during u = some s →
    (∀ n, s.world.process.currentSemaphore p = some n →
      ∀ t, ¬(s.world.process.semaphores n).Queued t) ∧
    ∀ L, Stretch cfg profile p L during u → Fits p limit L u s

end Runs

section Stage

variable {cfg : Config} {profile : Profile} {s : ServiceState} {l : ServiceLabel} {t x : Tid}
  {c : Call} {g : Stage} {e : Effect} {r : e.Reply} {w : World} {p : Provider} {n L : ℕ}

/-- The call runs at the provider and is not inside semaphore `n`. -/
def Elsewhere (p : Provider) (n : ℕ) (st : Statuses) (t : Tid) : Prop :=
  ∃ c m b, st t = some ⟨c, .calling p m, b⟩ ∧ m ≠ some n

theorem ok_finish {paymentId : Uuid} (h : ok g (.provider (.finishPayment p paymentId))) :
    ∃ m, g = .calling p m := by
  cases g with
  | idle => exact absurd trivial h
  | chosen q m => cases m <;> exact h.elim
  | granted q m => exact h.elim
  | calling q m =>
    obtain rfl : p = q := h
    exact ⟨m, rfl⟩
  | leaving q m => exact h.elim

theorem running_iff (kept : discipline.Kept s) :
    Running p s t ↔ ∃ c m b, discipline.statuses s t = some ⟨c, .calling p m, b⟩ := by
  constructor
  · rintro ⟨paymentId, T, task, head⟩
    have follows := kept t T task
    have status := discipline.statuses_of_task task
    cases code : T.code with
    | done a =>
      rw [code] at head
      cases head
    | perform e k =>
      rw [code] at head follows
      obtain rfl := Option.some.inj head
      obtain ⟨m, hm⟩ := ok_finish follows.1
      exact ⟨_, m, _, status.trans (by rw [Discipline.status, hm])⟩
  · rintro ⟨c, m, b, status⟩
    obtain ⟨T, task, hT⟩ := discipline.statuses_some status
    have phase : discipline.phase T = .calling p m := congrArg Status.phase hT
    have follows := kept t T task
    rw [phase] at follows
    cases code : T.code with
    | done a =>
      rw [code] at follows
      cases follows
    | perform e k =>
      rw [code] at follows
      obtain ⟨paymentId, rfl⟩ := ok_calling follows.1
      exact ⟨paymentId, T, task, by rw [code]; rfl⟩

theorem log_of_touches {w' : World} (h : e.Touches w w') (circuit : ∀ a, e ≠ .circuit a)
    (provider : ∀ a, e ≠ .provider a) : w'.log = w.log := by
  cases e with
  | circuit a => exact absurd rfl (circuit a)
  | provider a => exact absurd rfl (provider a)
  | host e => obtain rfl | ⟨-, rfl⟩ := h <;> rfl
  | stats e => obtain ⟨_, _, rfl⟩ := h; rfl
  | _ => obtain ⟨_, rfl⟩ := h; rfl

/-- Only the task that moves can start a payment. -/
theorem reply_starts (h : Delivered (system cfg profile) s l t e (.reply r w)) :
    ∃ new, w.log = new ++ s.world.log ∧ ∀ u q id, .paymentStarted u q id ∈ new → u = t := by
  have touched := reply_touches h
  by_cases circuit : ∃ a, e = .circuit a
  · obtain ⟨a, rfl⟩ := circuit
    obtain ⟨_, new, ofCircuit, rfl⟩ := touched
    refine ⟨new, rfl, fun u q id started => ?_⟩
    cases ofCircuit _ started
  · by_cases provider : ∃ a, e = .provider a
    · obtain ⟨a, rfl⟩ := provider
      cases a with
      | startPayment q id =>
        obtain rfl := startPayment_reply h
        refine ⟨[.paymentStarted t q id], rfl, fun u q' id' started => ?_⟩
        obtain ⟨rfl, -, -⟩ : u = t ∧ q' = q ∧ id' = id := by simpa using started
        rfl
      | _ =>
        obtain rfl | ⟨x, notes, rfl⟩ := touched
        · exact ⟨[], rfl, nofun⟩
        · refine ⟨[x], rfl, fun u q id started => ?_⟩
          obtain rfl := List.mem_singleton.mp started
          cases notes
    · refine ⟨[], ?_, nofun⟩
      exact log_of_touches touched (fun a ha => circuit ⟨a, ha⟩) fun a ha => provider ⟨a, ha⟩

theorem wait_log (h : Delivered (system cfg profile) s l t e (.wait w)) :
    w.log = s.world.log := by
  by_cases provider : ∃ a, e = .provider a
  · obtain ⟨a, rfl⟩ := provider
    rw [provider_wait h]
  · apply log_of_touches (wait_touches h) _ fun a ha => provider ⟨a, ha⟩
    rintro a rfl
    exact circuit_never_waits h

/-- A call comes to run at the provider by starting a payment there, in the semaphore in force. -/
theorem next_calling (h : Placed p s.world s.running t g) (hok : ok g e) {m : Option ℕ}
    (calling : next g e r = .calling p m) : m = s.world.process.currentSemaphore p := by
  cases g with
  | idle =>
    by_cases choosing : ∃ q, e = .semaphore (.current q)
    · obtain ⟨q, rfl⟩ := choosing
      cases calling
    · rw [next_idle hok r fun q hq => choosing ⟨q, hq⟩] at calling
      cases calling
  | chosen q n =>
    cases n with
    | some n =>
      obtain rfl := ok_waiting hok
      cases r <;> cases calling
    | none =>
      obtain ⟨_, _, _, _, rfl⟩ := ok_unlimited hok
      cases calling
      exact (h.unlimited rfl).symm
  | granted q n =>
    obtain ⟨_, _, _, _, rfl⟩ := ok_granted hok
    cases calling
    exact (h.current (.inr rfl)).symm
  | calling q n =>
    obtain ⟨_, rfl⟩ := ok_calling hok
    cases n <;> cases calling
  | leaving q n =>
    obtain rfl := ok_leaving hok
    cases calling

end Stage

section Window

variable {cfg : Config} {profile : Profile} {p : Provider} {L : ℕ} {u v s : ServiceState}
  {l : ServiceLabel}

/-- A step within the window that begins at `u`. -/
def Within (p : Provider) (L : ℕ) (u s : ServiceState) (l : ServiceLabel) : Prop :=
  Limited p L s ∧ Patient p s l ∧
    ∀ limit, l = .outside (.setProviderConcurrency p limit) → Fits p limit L u s

/-- The payments since `u` that run outside the semaphore in force leave room for its limit. -/
structure Room (p : Provider) (L : ℕ) (u s : ServiceState) : Prop where
  later : u.world.log <:+ s.world.log
  room : ∀ n, s.world.process.currentSemaphore p = some n → ∀ F : Finset Tid, F.Nonempty →
    (∀ t ∈ F, Since p u s t ∧ Elsewhere p n (discipline.statuses s) t) →
    F.card + (s.world.process.semaphores n).limit ≤ L

theorem not_since_refl {t : Tid} : ¬Since p u u t := by
  rintro ⟨new, id, same, started⟩
  obtain rfl : new = [] := List.self_eq_append_left.mp same
  cases started

theorem room_refl : Room p L u u := by
  refine ⟨List.suffix_refl _, fun n _ F ⟨t, ht⟩ since => ?_⟩
  exact absurd (since t ht).1 not_since_refl

theorem Since.before {t x : Tid} {new : List Happening} (later : u.world.log <:+ s.world.log)
    (log : v.world.log = new ++ s.world.log)
    (own : ∀ u q id, .paymentStarted u q id ∈ new → u = t) (ne : x ≠ t) (h : Since p u v x) :
    Since p u s x := by
  obtain ⟨all, id, same, started⟩ := h
  obtain ⟨old, hold⟩ := later
  obtain rfl : all = new ++ old := by
    have both : all ++ u.world.log = (new ++ old) ++ u.world.log := by
      rw [← same, log, ← hold, List.append_assoc]
    exact List.append_cancel_right both
  obtain now | before := List.mem_append.mp started
  · exact absurd (own _ _ _ now) ne
  · exact ⟨old, id, hold.symm, before⟩

theorem since_of_log {t : Tid} (log : v.world.log = s.world.log) :
    Since p u v t ↔ Since p u s t := by
  unfold Since
  rw [log]

theorem elsewhere_of_update {t x : Tid} {st : Statuses} {y : Status Call Stage} {n : ℕ} (ne : x ≠ t)
    (h : Elsewhere p n (Function.update st t (some y)) x) : Elsewhere p n st x := by
  unfold Elsewhere at h
  rwa [Function.update_of_ne ne] at h

theorem running_of_elsewhere {t : Tid} {n : ℕ} (kept : discipline.Kept s)
    (h : Elsewhere p n (discipline.statuses s) t) : Running p s t := by
  obtain ⟨c, m, b, status, -⟩ := h
  exact (running_iff kept).mpr ⟨c, m, b, status⟩

theorem room_step (kept : discipline.Kept s)
    (inv : Inv p s.world s.running (discipline.statuses s)) (within : Within p L u s l)
    (moved : step (system cfg profile) l s = some v) (h : Room p L u s) : Room p L u v := by
  cases step_moves _ moved with
  | @call t c idle new =>
    refine ⟨h.later, fun n current F some since => h.room n current F some fun x hx => ?_⟩
    obtain ⟨began, elsewhere⟩ := since x hx
    refine ⟨began, ?_⟩
    rw [discipline.statuses_put] at elsewhere
    by_cases same : x = t
    · obtain ⟨_, _, _, status, -⟩ := elsewhere
      rw [same, Function.update_self] at status
      cases status
    · exact elsewhere_of_update same elsewhere
  | @reply l t T e k r w task code delivered =>
    obtain ⟨new, log, own⟩ := reply_starts delivered
    have quiet := reply_quiet delivered
    have follows := kept t T task
    have status := discipline.statuses_of_task task
    rw [code] at follows
    rw [Maintains.status_perform code] at status
    refine ⟨log ▸ h.later.trans (List.suffix_append ..), fun n current F some since => ?_⟩
    have before : s.world.process.currentSemaphore p = Option.some n := quiet.current ▸ current
    rw [put_world, (quiet.spares n).limit]
    refine h.room n before F some fun x hx => ?_
    obtain ⟨began, elsewhere⟩ := since x hx
    rw [discipline.statuses_put] at elsewhere
    by_cases same : x = t
    · subst same
      obtain ⟨_, m, _, hm, out⟩ := elsewhere
      rw [Function.update_self] at hm
      have phase := congrArg Status.phase (Option.some.inj hm)
      rw [Discipline.status, discipline.phase_reply T (k r)] at phase
      have := next_calling (inv.placed status) follows.1 phase
      exact absurd (this.trans before) out
    · exact ⟨began.before h.later log own same, elsewhere_of_update same elsewhere⟩
  | @wait l t T e k w task code delivered =>
    have log := wait_log delivered
    have quiet := wait_quiet delivered
    refine ⟨log ▸ h.later, fun n current F some since => ?_⟩
    rw [(quiet.spares n).limit]
    refine h.room n (quiet.current ▸ current) F some fun x hx => ?_
    obtain ⟨began, elsewhere⟩ := since x hx
    exact ⟨(since_of_log log).mp began, elsewhere⟩
  | @outside a w idle outside =>
    have log := (outside_frame outside).log
    refine ⟨log ▸ h.later, fun n current F some since => ?_⟩
    have since' := fun x hx => And.imp_left (since_of_log log).mp (since x hx)
    cases a with
    | setProviderConcurrency q limit =>
      cases outside
      simp only [Process.setProviderConcurrency] at current ⊢
      by_cases same : p = q
      · subst same
        rw [Function.update_self] at current
        split at current
        · cases current
        · cases current
          rw [Function.update_self]
          exact within.2.2 limit rfl F some fun x hx =>
            ⟨running_of_elsewhere kept (since x hx).2, (since' x hx).1⟩
      · rw [Function.update_of_ne same] at current
        rw [Function.update_of_ne (inv.known current).ne]
        exact h.room n current F some since'
    | tick elapsed =>
      obtain ⟨redis, -, rfl⟩ := Option.map_eq_some_iff.mp outside
      exact h.room n current F some since'

/-- The calls inside the semaphore in force are within its limit, and those outside it leave
room for it. -/
theorem fits_of_room (kept : discipline.Kept s)
    (inv : Inv p s.world s.running (discipline.statuses s)) (limited : Limited p L s)
    (h : Room p L u s) : Fits p 0 L u s := by
  intro F _ since
  obtain ⟨n, current, le⟩ := limited
  let inside := F.filter (· ∈ (s.world.process.semaphores n).holders)
  let outside := F.filter (· ∉ (s.world.process.semaphores n).holders)
  have split : inside.card + outside.card = F.card := F.card_filter_add_card_filter_not _
  have few : inside.card ≤ (s.world.process.semaphores n).limit := by
    have sub : inside ⊆ (s.world.process.semaphores n).holders.toFinset := by
      intro t ht
      exact List.mem_toFinset.mpr (Finset.mem_filter.mp ht).2
    calc inside.card ≤ (s.world.process.semaphores n).holders.toFinset.card :=
          Finset.card_le_card sub
      _ ≤ (s.world.process.semaphores n).holders.length := List.toFinset_card_le _
      _ ≤ _ := Semaphore.holders_le _
  obtain none | some := outside.eq_empty_or_nonempty
  · rw [none, Finset.card_empty] at split
    omega
  · have room := h.room n current outside some fun t ht => ?_
    · omega
    · obtain ⟨mem, out⟩ := Finset.mem_filter.mp ht
      obtain ⟨running, began⟩ := since t mem
      obtain ⟨c, m, b, status⟩ := (running_iff kept).mp running
      refine ⟨began, c, m, b, status, ?_⟩
      rintro rfl
      exact out ((inv.placed status).holding (.inr (.inl rfl)))

end Window

/-- The limit on a provider holds in every run that sets it carefully. -/
theorem limit_holds (cfg : Config) (profile : Profile) (p : Provider) (circuit : CircuitBreaker)
    (concurrency : List (Provider × ℕ)) {ls : List ServiceLabel}
    (careful : Careful cfg profile p (.initial circuit concurrency) ls) :
    Bounded cfg profile p (.initial circuit concurrency) ls := by
  intro before during u s L part hu hs stretch
  have M := inv_maintained cfg profile p
  have upTo : Reaches (system cfg profile) (Patient p) (.empty (.initial circuit concurrency)) u := by
    refine run_reaches _ (throughout_of_before _ fun first l v shorter hv => ?_) hu
    rintro limit n rfl
    refine (careful first [] v v limit ?_ hv rfl).1 n
    rw [List.append_nil]
    exact shorter.trans ((List.prefix_append ..).trans part)
  obtain ⟨kept, inv⟩ := M.reaches_empty (inv_initial circuit concurrency) upTo
  have window : Reaches (system cfg profile) (Within p L u) u s := by
    refine run_reaches _ (throughout_of_before _ fun first l v shorter hv => ?_) hs
    have in_ls : before ++ first ++ [l] <+: ls := by
      rw [List.append_assoc]
      exact ((List.prefix_append_right_inj before).mpr shorter).trans part
    refine ⟨stretch first v ((List.prefix_append ..).trans shorter) hv, ?_, ?_⟩
    · rintro limit n rfl
      exact (careful before first u v limit in_ls hu hv).1 n
    · rintro limit rfl
      refine (careful before first u v limit in_ls hu hv).2 L fun earlier x hx => ?_
      exact stretch earlier x (hx.trans ((List.prefix_append ..).trans shorter))
  obtain ⟨kept', inv', room⟩ := window.invariant
    (I := fun s => discipline.Kept s ∧ Inv p s.world s.running (discipline.statuses s) ∧
      Room p L u s) ⟨kept, inv, room_refl⟩ fun s l s' ⟨kept, inv, room⟩ within moved =>
      ⟨(M.step kept inv within.2.1 moved).1, (M.step kept inv within.2.1 moved).2,
        room_step kept inv within moved room⟩
  exact fits_of_room kept' inv' (stretch during s (List.prefix_refl _) hs) room

section Instances

instance (p : Provider) (L : ℕ) (s : ServiceState) : Decidable (Limited p L s) :=
  match h : s.world.process.currentSemaphore p with
  | none => .isFalse fun ⟨_, hn, _⟩ => nomatch h.symm.trans hn
  | some m => decidable_of_iff ((s.world.process.semaphores m).limit ≤ L)
      ⟨fun le => ⟨m, h, le⟩, fun ⟨_, hm, le⟩ => Option.some.inj (h.symm.trans hm) ▸ le⟩

/-- Payments, and limits that are positive. -/
def Limiting : ServiceLabel → Prop
  | .call _ (.create _) => True
  | .call _ _ => False
  | .outside (.setProviderConcurrency _ limit) => 0 < limit
  | _ => True

instance : DecidablePred Limiting
  | .call _ (.create _) => .isTrue trivial
  | .call _ (.refund _ _) => .isFalse id
  | .call _ (.recover _) => .isFalse id
  | .enter _ _ => .isTrue trivial
  | .resume _ _ => .isTrue trivial
  | .outside (.setProviderConcurrency _ limit) => inferInstanceAs (Decidable (0 < limit))
  | .outside (.tick _) => .isTrue trivial

/-- A payment that is running at the one provider, inside its semaphore. -/
def running (t : Tid) (idempotencyKey : String) : List ServiceLabel :=
  create t 0 (card idempotencyKey) 1 ++ ask t 0 ++ .enter t .go :: start t

def limit (n : ℕ) : ServiceLabel := .outside (.setProviderConcurrency "stripe" n)

/-- The first payment stays inside the semaphore that is replaced. -/
def replaced : List ServiceLabel := running 0 "a" ++ limit 1 :: running 1 "b"

theorem replaced_exceeds :
    (∀ l ∈ replaced, Limiting l) ∧
    ¬Bounded (service ["stripe"] 1) {} "stripe" (.initial fragile [("stripe", 1)]) replaced := by
  have limiting : ∀ l ∈ replaced, Limiting l := by decide +kernel
  refine ⟨limiting, fun bounded => ?_⟩
  let first : ServiceState := .empty (.initial fragile [("stripe", 1)])
  have ends : ∃ s ∈ run (system (service ["stripe"] 1) {}) replaced first,
      s.At 0 (.provider (.finishPayment "stripe" 0)) ∧
      s.At 1 (.provider (.finishPayment "stripe" 1)) ∧
      .paymentStarted 0 "stripe" 0 ∈ s.world.log ∧
      .paymentStarted 1 "stripe" 1 ∈ s.world.log := by decide +kernel
  have limited : ∀ k ≤ replaced.length, ∀ v ∈ run (system (service ["stripe"] 1) {})
      (replaced.take k) first, Limited "stripe" 1 v := by decide +kernel
  obtain ⟨s, hs, run_0, run_1, start_0, start_1⟩ := ends
  have stretch : Stretch (service ["stripe"] 1) {} "stripe" 1 replaced first := by
    intro before v hb hv
    rw [List.prefix_iff_eq_take.mp hb] at hv
    exact limited _ hb.length_le v hv
  have few := bounded [] replaced first s 1 (List.prefix_refl _) rfl hs stretch {0, 1}
    (Finset.insert_nonempty ..) ?_
  · revert few
    decide
  · have log : s.world.log = s.world.log ++ first.world.log := (List.append_nil _).symm
    intro t ht
    obtain rfl | rfl : t = 0 ∨ t = 1 := by simpa using ht
    · exact ⟨⟨0, run_0⟩, s.world.log, 0, log, start_0⟩
    · exact ⟨⟨1, run_1⟩, s.world.log, 1, log, start_1⟩

/-- The place of the one label in a run that is outside of it. -/
theorem outside_at {first rest before : List ServiceLabel} {a b : Outside}
    (hf : ∀ l ∈ first, l.task.isSome) (hr : ∀ l ∈ rest, l.task.isSome)
    (h : before ++ [.outside b] <+: first ++ .outside a :: rest) : before = first ∧ b = a := by
  obtain ⟨more, eq⟩ := h
  rw [List.append_assoc, List.singleton_append] at eq
  obtain ⟨xs, hx, hy⟩ | ⟨xs, hx, hy⟩ := List.append_eq_append_iff.mp eq
  · cases xs with
    | nil => simp_all
    | cons x xs =>
      cases hy
      simpa [Label.task] using hf (.outside b) (hx ▸ by simp)
  · cases xs with
    | nil => simp_all
    | cons x xs =>
      cases hy
      simpa [Label.task] using hr (.outside b) (by simp)

theorem running_tasks (t : Tid) (key : String) : ∀ l ∈ running t key, l.task.isSome :=
  List.all_eq_true.mp rfl

theorem running_alone {cfg : Config} {profile : Profile} {w : World} {s : ServiceState}
    {p : Provider} (h : run (system cfg profile) (running 0 "a") (.empty w) = some s)
    {F : Finset Tid} (all : ∀ t ∈ F, Running p s t) : F ⊆ {0} := by
  intro t ht
  obtain ⟨_, T, task, -⟩ := all t ht
  have mem := run_called _ h task
  rw [show called (running 0 "a") = [0] from rfl] at mem
  simpa using mem

/-- A limit of two is replaced by one while one payment runs. -/
theorem lowered_bounded :
    let lowered := running 0 "a" ++ limit 1 :: running 1 "b"
    (run (system (service ["stripe"] 1) {}) lowered
      (.empty (.initial fragile [("stripe", 2)]))).isSome ∧
    Bounded (service ["stripe"] 1) {} "stripe" (.initial fragile [("stripe", 2)]) lowered := by
  let first : ServiceState := .empty (.initial fragile [("stripe", 2)])
  refine ⟨by decide +kernel, limit_holds _ _ _ fragile [("stripe", 2)] ?_⟩
  intro before during u s n part hu hs
  obtain ⟨eq, same⟩ := outside_at (running_tasks 0 "a") (running_tasks 1 "b") part
  cases same
  have at_s : run (system (service ["stripe"] 1) {}) (running 0 "a") first = some s := by
    rw [← eq, run_append, hu, Option.bind_some, hs]
  have reached : ∃ v ∈ run (system (service ["stripe"] 1) {}) (running 0 "a") first,
      v.world.process.currentSemaphore "stripe" = some 0 ∧
      (v.world.process.semaphores 0).waiters = [] ∧ (v.world.process.semaphores 0).woken = [] ∧
      (v.world.process.semaphores 0).limit = 2 := by decide +kernel
  obtain ⟨v, hv, current, waiters, woken, two⟩ := reached
  obtain rfl := Option.some.inj (at_s.symm.trans hv)
  constructor
  · intro m hm t
    obtain rfl := Option.some.inj (current.symm.trans hm)
    simp [Semaphore.Queued, waiters, woken]
  · intro L stretch F _ since
    obtain ⟨m, hm, le⟩ := stretch during s (List.prefix_refl _) hs
    obtain rfl := Option.some.inj (current.symm.trans hm)
    have := Finset.card_le_card (running_alone at_s fun t ht => (since t ht).1)
    rw [Finset.card_singleton] at this
    omega

end Instances

end PySwitch.Slots
