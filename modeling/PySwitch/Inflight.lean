import PySwitch.Answers
import PySwitch.InflightProtocol
import Mathlib.Data.Finset.Card

namespace PySwitch.Inflight

open Async Scenario

abbrev Statuses : Type := Tid → Option (Status Call Stage)

/-- The attempt of task `t` at the provider `p` has begun and not yet ended. -/
def InFlight (st : Statuses) (p : Provider) (t : Tid) : Prop :=
  ∃ u, st t = some u ∧ u.phase = .inflight p

/-- The inputs that take a task out of an attempt before its outcome is counted. -/
def loses : Input → Bool
  | .cancel => true
  | .outcome (.error .cancelled) => true
  | .fail _ _ => true
  | _ => false

/-- The task a label takes out of its attempt, if it is in one. -/
def disturbed : ServiceLabel → Option Tid
  | .enter t i => if loses i then some t else none
  | .resume t i => if loses i then some t else none
  | _ => none

/-- No attempt in flight is cancelled, and the outbox takes the event of its circuit. -/
def Undisturbed (s : ServiceState) (l : ServiceLabel) : Prop :=
  ∀ t p, disturbed l = some t → ¬ InFlight (discipline.statuses s) p t

theorem first_ne (c : Call) (p : Provider) : first c ≠ .inflight p := by
  cases c <;> exact Stage.noConfusion

structure Inv (w : World) (_ : Option Tid) (st : Statuses) : Prop where
  absent : ∀ {t u}, st t = some u → creates u.call = false → u.phase = .absent
  counted : ∀ p, ∃ F : Finset Tid, (∀ t, t ∈ F ↔ InFlight st p t) ∧
    (w.process.stats p).inflight = F.card

theorem next_absent (e : Effect) (r : e.Reply) : next .absent e r = .absent := by
  unfold next
  split <;> first | rfl | simp_all

section Count

variable {st : Statuses} {t : Tid} {c : Call} {g g' : Stage} {b : Bool} {p : Provider}

theorem inFlight_self : InFlight (Function.update st t (some ⟨c, g, b⟩)) p t ↔ g = .inflight p := by
  simp [InFlight]

theorem inFlight_other {u : Tid} (hu : u ≠ t) {x : Option (Status Call Stage)} :
    InFlight (Function.update st t x) p u ↔ InFlight st p u := by
  simp only [InFlight, Function.update_of_ne hu]

theorem counted_same {n : ℕ} (h : ∃ F : Finset Tid, (∀ u, u ∈ F ↔ InFlight st p u) ∧ n = F.card)
    (same : InFlight st p t ↔ g = .inflight p) :
    ∃ F : Finset Tid, (∀ u, u ∈ F ↔ InFlight (Function.update st t (some ⟨c, g, b⟩)) p u) ∧
      n = F.card := by
  obtain ⟨F, hF, hn⟩ := h
  refine ⟨F, fun u => (hF u).trans ?_, hn⟩
  by_cases hu : u = t
  · subst u
    rw [inFlight_self, same]
  · rw [inFlight_other hu]

theorem counted_started {n : ℕ}
    (h : ∃ F : Finset Tid, (∀ u, u ∈ F ↔ InFlight st p u) ∧ n = F.card) (ht : ¬ InFlight st p t) :
    ∃ F : Finset Tid,
      (∀ u, u ∈ F ↔ InFlight (Function.update st t (some ⟨c, .inflight p, b⟩)) p u) ∧
      n + 1 = F.card := by
  obtain ⟨F, hF, rfl⟩ := h
  refine ⟨insert t F, fun u => ?_, (Finset.card_insert_of_notMem fun h => ht ((hF t).mp h)).symm⟩
  rw [Finset.mem_insert, hF]
  by_cases hu : u = t
  · subst u
    simp [inFlight_self]
  · simp [inFlight_other hu, hu]

theorem counted_ended {n : ℕ}
    (h : ∃ F : Finset Tid, (∀ u, u ∈ F ↔ InFlight st p u) ∧ n = F.card) (ht : InFlight st p t) :
    ∃ F : Finset Tid, (∀ u, u ∈ F ↔ InFlight (Function.update st t (some ⟨c, .idle, b⟩)) p u) ∧
      n - 1 = F.card := by
  obtain ⟨F, hF, rfl⟩ := h
  refine ⟨F.erase t, fun u => ?_, (Finset.card_erase_of_mem ((hF t).mpr ht)).symm⟩
  rw [Finset.mem_erase, hF]
  by_cases hu : u = t
  · subst u
    simp [inFlight_self]
  · simp [inFlight_other hu, hu]

end Count

section Step

variable {cfg : Config} {profile : Profile} {s : ServiceState} {l : ServiceLabel} {t : Tid}
  {c : Call} {g : Stage} {e : Effect} {r : e.Reply} {w : World} {p : Provider}

theorem startRequest_reply {q : Provider} {r : Unit}
    (h : Delivered (system cfg profile) s l t (.stats (.startRequest q)) (.reply r w)) :
    w.process.stats =
      Function.update s.world.process.stats q (s.world.process.stats q).start := by
  obtain ⟨i, -, -, ha⟩ | ⟨i, -, -, ha⟩ := h.answer
  · obtain ⟨x, hx, rfl⟩ := Answer.lift_reply ha.symm
    cases i <;> cases hx
    rfl
  · cases ha

theorem finishRequest_reply {q : Provider} {success : Bool} {latencyMs : ℚ}
    {errorCode : Option String} {r : Unit}
    (h : Delivered (system cfg profile) s l t
      (.stats (.finishRequest q success latencyMs errorCode)) (.reply r w)) :
    ∃ now, w.process.stats = Function.update s.world.process.stats q
      ((s.world.process.stats q).finish success latencyMs errorCode now) := by
  obtain ⟨i, -, -, ha⟩ | ⟨i, -, -, ha⟩ := h.answer
  · obtain ⟨x, hx, rfl⟩ := Answer.lift_reply ha.symm
    cases i <;> cases hx
    exact ⟨_, rfl⟩
  · cases ha

theorem countRetry_reply {q : Provider} {r : Unit}
    (h : Delivered (system cfg profile) s l t (.stats (.countRetry q)) (.reply r w)) :
    w.process.stats = s.world.process.stats := by
  obtain ⟨i, -, -, ha⟩ | ⟨i, -, -, ha⟩ := h.answer
  · obtain ⟨x, hx, rfl⟩ := Answer.lift_reply ha.symm
    cases i <;> cases hx
    rfl
  · cases ha

theorem finish_inflight (a : ProviderStats) (success : Bool) (latencyMs : ℚ)
    (errorCode : Option String) (now : Seconds) :
    (a.finish success latencyMs errorCode now).inflight = a.inflight - 1 := by
  unfold ProviderStats.finish
  dsimp only
  split <;> rfl

/-- An attempt stays in flight until its outcome is counted, unless it is disturbed. -/
theorem inflight_kept (h : Delivered (system cfg profile) s l t e (.reply r w))
    (he : ¬ counting e) : next (.inflight p) e r = .inflight p ∨ disturbed l = some t := by
  cases e with
  | stats e =>
    cases e with
    | countRetry q => exact .inl rfl
    | _ => exact absurd trivial he
  | semaphore e =>
    cases e with
    | acquire q n =>
      cases r with
      | ok _ => exact .inl rfl
      | error x =>
        rw [(semaphore_error h).2]
        exact .inr rfl
    | _ => exact .inl rfl
  | provider e =>
    cases e with
    | finishPayment q paymentId =>
      cases r with
      | ok result => exact .inl rfl
      | error x =>
        cases x with
        | cancelled =>
          obtain ⟨rfl | ⟨rfl, -⟩, -, -⟩ := finishPayment_reply h
          · exact .inr rfl
          · exact .inr rfl
        | _ => exact .inl rfl
    | _ => exact .inl rfl
  | store e =>
    cases e with
    | append events =>
      cases r with
      | ok _ => exact .inl rfl
      | error x =>
        obtain ⟨stored, rfl | rfl⟩ := store_raised rfl h
        · exact .inr rfl
        · exact .inr rfl
    | _ => exact .inl rfl
  | _ => exact .inl rfl

theorem reply_may (h : Delivered (system cfg profile) s l t e (.reply r w)) : may e r := by
  cases e with
  | semaphore e =>
    cases e with
    | acquire q n =>
      cases r with
      | ok _ => trivial
      | error x => exact (semaphore_error h).1
    | _ => trivial
  | _ => trivial

/-- A request is counted when its attempt begins, and no longer when its outcome is. -/
theorem counted_reply (inv : Inv s.world s.running (discipline.statuses s))
    (undisturbed : Undisturbed s l) (ht : discipline.statuses s t = some ⟨c, g, false⟩)
    (hok : ok g e) (h : Delivered (system cfg profile) s l t e (.reply r w)) (b : Bool)
    (p : Provider) : ∃ F : Finset Tid, (∀ u, u ∈ F ↔ InFlight (Function.update
      (discipline.statuses s) t (some ⟨c, next g e r, b⟩)) p u) ∧
      (w.process.stats p).inflight = F.card := by
  have now (q : Provider) : InFlight (discipline.statuses s) q t ↔ g = .inflight q := by
    simp [InFlight, ht]
  by_cases he : counting e
  · cases e with
    | stats e =>
      cases e with
      | startRequest q =>
        cases g with
        | idle =>
          rw [startRequest_reply h]
          by_cases hq : p = q
          · subst p
            rw [Function.update_self]
            exact counted_started (inv.counted q) fun hf => nomatch (now q).mp hf
          · rw [Function.update_of_ne hq]
            apply counted_same (inv.counted p)
            simp [now, next, Ne.symm hq]
        | _ => exact hok.elim
      | finishRequest q success latencyMs errorCode =>
        cases g with
        | inflight q' =>
          obtain rfl : q = q' := hok
          obtain ⟨at', hw⟩ := finishRequest_reply h
          rw [hw]
          by_cases hq : p = q
          · subst p
            rw [Function.update_self, finish_inflight]
            exact counted_ended (inv.counted q) ((now q).mpr rfl)
          · rw [Function.update_of_ne hq]
            apply counted_same (inv.counted p)
            simp [now, next, Ne.symm hq]
        | _ => exact hok.elim
      | countRetry q => exact he.elim
    | _ => exact he.elim
  · have same : w.process.stats = s.world.process.stats := by
      by_cases hs : ∃ a, e = .stats a
      · obtain ⟨a, rfl⟩ := hs
        cases a with
        | countRetry q => exact countRetry_reply h
        | _ => exact absurd trivial he
      · exact (reply_touches h).stats fun a ha => hs ⟨a, ha⟩
    rw [same]
    apply counted_same (inv.counted p)
    rw [now]
    cases g with
    | inflight q =>
      obtain kept | lost := inflight_kept (p := q) h he
      · rw [kept]
      · exact absurd ((now q).mpr rfl) (undisturbed t q lost)
    | idle => rw [(neutral idle_ne he).2]
    | absent => rw [(neutral absent_ne he).2]

end Step

/-- A provider has as many requests in flight as there are attempts at it, in every state of a
run that disturbs none of them. -/
theorem maintains (cfg : Config) (profile : Profile) :
    Maintains (system cfg profile) Undisturbed discipline Inv where
  follows := run_follows cfg
  call := fun {s t c b v} _ inv new hg => {
    absent := fun hu hc => by
      obtain ⟨rfl, rfl⟩ | ⟨-, hu⟩ := update_cases hu
      · simp [discipline, first, hc]
      · exact inv.absent hu hc
    counted := fun p => by
      apply counted_same (inv.counted p)
      constructor
      · rintro ⟨u, hu, -⟩
        cases new.symm.trans hu
      · exact fun hp => absurd hp (first_ne c p) }
  reply := fun {s l t c g e r w} undisturbed inv ht hok h => ⟨reply_may h, fun b v hg => {
    absent := fun hu hc => by
      obtain ⟨rfl, rfl⟩ | ⟨-, hu⟩ := update_cases hu
      · obtain rfl : g = .absent := inv.absent ht hc
        exact next_absent e r
      · exact inv.absent hu hc
    counted := counted_reply inv undisturbed ht hok h b }⟩
  wait := fun {s l t c g e w} _ inv ht hok h => {
    absent := inv.absent
    counted := fun p => by
      have same : w.process.stats = s.world.process.stats := by
        by_cases hs : ∃ a, e = .stats a
        · obtain ⟨a, rfl⟩ := hs
          exact absurd h stats_never_waits
        · exact (wait_touches h).stats fun a ha => hs ⟨a, ha⟩
      rw [same]
      exact inv.counted p }
  outside := fun {s a w} _ inv moved => {
    absent := inv.absent
    counted := fun p => by
      have same : w.process.stats = s.world.process.stats := by
        cases a with
        | setProviderConcurrency provider limit => cases moved; rfl
        | tick elapsed =>
          obtain ⟨_, -, rfl⟩ := Option.map_eq_some_iff.mp moved
          rfl
      rw [same]
      exact inv.counted p }

theorem initial_inflight (circuit : CircuitBreaker) (concurrency : List (Provider × ℕ))
    (p : Provider) : ((World.initial circuit concurrency).process.stats p).inflight = 0 :=
  Process.initial_eq (fun q => (q.stats p).inflight) (fun _ _ _ => rfl) circuit concurrency

/-- In every state of a run that disturbs no attempt in flight, a provider counts the attempts
at it that have begun and not ended, and so none when no payment is being created. -/
theorem inflight_conserved (cfg : Config) (profile : Profile) (circuit : CircuitBreaker)
    (concurrency : List (Provider × ℕ)) {s : ServiceState}
    (h : Reaches (system cfg profile) Undisturbed (.empty (.initial circuit concurrency)) s)
    (p : Provider) :
    (∃ F : Finset Tid, (∀ t, t ∈ F ↔ InFlight (discipline.statuses s) p t) ∧
      (s.world.process.stats p).inflight = F.card) ∧
    ((∀ t T, s.tasks t = some T → creates T.call = true → T.code.isDone = true) →
      (s.world.process.stats p).inflight = 0) := by
  have first : Inv (.initial circuit concurrency) none (fun _ => none) :=
    ⟨nofun, fun p => ⟨∅, by simp [InFlight], initial_inflight circuit concurrency p⟩⟩
  obtain ⟨kept, inv⟩ := (maintains cfg profile).reaches_empty first h
  obtain ⟨F, hF, counted⟩ := inv.counted p
  refine ⟨⟨F, hF, counted⟩, fun idle => ?_⟩
  have none : F = ∅ := by
    rw [Finset.eq_empty_iff_forall_notMem]
    intro t ht
    obtain ⟨u, hu, phase⟩ := (hF t).mp ht
    obtain ⟨T, task, rfl⟩ := discipline.statuses_some hu
    by_cases hc : creates T.call = true
    · obtain ⟨_, post⟩ := kept.ended task (idle t T task hc)
      replace post : discipline.phase T = Inflight.first T.call := post
      rw [Inflight.first, if_pos hc] at post
      cases post.symm.trans phase
    · cases (inv.absent hu (Bool.eq_false_iff.mpr hc)).symm.trans phase
  rw [counted, none, Finset.card_empty]

/-- A payment fails while a second one is on its way. -/
def failingRun : List ServiceLabel :=
  create 0 0 (card "a") 1 ++ ask 0 0 ++ start 0 ++ create 1 0 (card "b") 1 ++ ask 1 0 ++
  start 1 ++ raises 0 unavailable ++ recordFailure 0 1 ++ event 0 1 ++
  [.enter 0 .go, .enter 0 .go, .enter 0 (.at 1)] ++ finish 0 1

/-- The second payment is made, which closes the circuit again. -/
def payingRun : List ServiceLabel :=
  returns 1 "reference" ++ [.enter 1 .go] ++ event 1 2 ++ [.enter 1 .go] ++
  List.replicate 3 (.enter 1 (.at 2)) ++ finish 1 2

theorem inflight_conserved_failing : ∃ s s' : ServiceState,
    s.ended 0 = true ∧ (∃ id, s.At 1 (.provider (.finishPayment "stripe" id))) ∧
    (s.world.process.stats "stripe").inflight = 1 ∧
    (∃ F : Finset Tid, (∀ t, t ∈ F ↔ InFlight (discipline.statuses s) "stripe" t) ∧
      (s.world.process.stats "stripe").inflight = F.card) ∧
    s'.Idle ∧ (s'.world.process.stats "stripe").totalRequests = 2 ∧
    (s'.world.process.stats "stripe").inflight = 0 := by
  have h : ∃ s ∈ run (system (service ["stripe"] 1) {}) failingRun
      (.empty (.initial fragile [])),
      s.ended 0 = true ∧ s.At 1 (.provider (.finishPayment "stripe" 1)) ∧
      (s.world.process.stats "stripe").inflight = 1 ∧
      ∃ s' ∈ run (system (service ["stripe"] 1) {}) payingRun s,
        (∀ t ∈ called (failingRun ++ payingRun), s'.ended t = true) ∧
        (s'.world.process.stats "stripe").totalRequests = 2 := by
    decide +kernel
  obtain ⟨s, first, failed, reached, one, s', second, ended, total⟩ := h
  have quiet : ∀ l ∈ failingRun ++ payingRun, disturbed l = none := by decide
  have meets : ∀ l ∈ failingRun ++ payingRun, ∀ s, Undisturbed s l := by
    intro l hl s t p lost
    cases (quiet l hl).symm.trans lost
  have before := run_reaches _ (throughout_of_forall _
    (fun l hl => meets l (List.mem_append_left _ hl)) _) first
  have after := run_reaches _ (throughout_of_forall _
    (fun l hl => meets l (List.mem_append_right _ hl)) _) second
  have moved : run (system (service ["stripe"] 1) {}) (failingRun ++ payingRun)
      (.empty (.initial fragile [])) = some s' := by
    rw [run_append, first]
    exact second
  have idle : s'.Idle := run_idle _ moved ended
  exact ⟨s, s', failed, ⟨1, reached⟩, one, (inflight_conserved _ _ _ _ before "stripe").1, idle,
    total, (inflight_conserved _ _ _ _ (before.trans after) "stripe").2 fun t T task _ =>
      idle t T task⟩

/-- A task is cancelled while it waits for the provider, and gives up its claim. -/
def cancelledRun : List ServiceLabel :=
  create 0 0 (card "a") 1 ++ ask 0 0 ++ start 0 ++ [.resume 0 .cancel, .enter 0 .go]

theorem cancelled_attempt_counted : ∃ s ∈ run (system (service ["stripe"] 1) {}) cancelledRun
    (.empty (.initial fragile [])), s.Idle ∧ (s.world.process.stats "stripe").inflight = 1 := by
  have h : ∃ s ∈ run (system (service ["stripe"] 1) {}) cancelledRun
      (.empty (.initial fragile [])), (∀ t ∈ called cancelledRun, s.ended t = true) ∧
      (s.world.process.stats "stripe").inflight = 1 := by
    decide +kernel
  obtain ⟨s, moved, ended, counted⟩ := h
  exact ⟨s, moved, run_idle _ moved ended, counted⟩

end PySwitch.Inflight
