import PySwitch.Async.Termination
import PySwitch.SemaphoreQueue

namespace PySwitch.Slots

open Async Program Service Semaphore

/-- A call is in line for a semaphore it has chosen, and inside one until it has left it. -/
def places : Places Stage ℕ where
  waits := fun g n => ∃ q, g = .chosen q (some n)
  holds := fun g n => ∃ q, Holding g q n

/-- The call is at a semaphore of the provider. -/
def Occupies (g : Stage) (q : Provider) (n : ℕ) : Prop := g = .chosen q (some n) ∨ Holding g q n

/-- A semaphore that a provider has been given, with a positive limit. -/
structure Given (of : ℕ → Provider) (p : Process) (q : Provider) (n : ℕ) : Prop where
  provider : of n = q
  bound : n < p.nextSemaphore
  limit : 0 < (p.semaphores n).limit

/-- The semaphores, each made for one provider, and the calls that are at them. -/
structure Lines (of : ℕ → Provider) (w : World) (running : Option Tid) (st : Statuses) : Prop where
  known : ∀ {q n}, w.process.currentSemaphore q = some n → Given of w.process q n
  used : ∀ {t u q n}, st t = some u → Occupies u.phase q n → Given of w.process q n
  queues : places.Queues w.process.semaphores running st

@[simp] theorem not_waits_idle (n : ℕ) : ¬places.waits .idle n := by
  rintro ⟨q, h⟩
  cases h

@[simp] theorem not_holds_idle (n : ℕ) : ¬places.holds .idle n := by
  rintro ⟨q, h⟩
  simp [Holding] at h

@[simp] theorem waits_chosen (q : Provider) (m : Option ℕ) (n : ℕ) :
    places.waits (.chosen q m) n ↔ m = some n := by
  simp [places]

@[simp] theorem not_holds_chosen (q : Provider) (m : Option ℕ) (n : ℕ) :
    ¬places.holds (.chosen q m) n := by
  simp [places, Holding]

@[simp] theorem not_waits_granted (q : Provider) (m n : ℕ) : ¬places.waits (.granted q m) n := by
  simp [places]

@[simp] theorem holds_granted (q : Provider) (m n : ℕ) :
    places.holds (.granted q m) n ↔ m = n := by
  simp [places, Holding]

@[simp] theorem not_waits_calling (q : Provider) (m : Option ℕ) (n : ℕ) :
    ¬places.waits (.calling q m) n := by
  simp [places]

@[simp] theorem holds_calling (q : Provider) (m : Option ℕ) (n : ℕ) :
    places.holds (.calling q m) n ↔ m = some n := by
  simp [places, Holding]

@[simp] theorem not_waits_leaving (q : Provider) (m n : ℕ) : ¬places.waits (.leaving q m) n := by
  simp [places]

@[simp] theorem holds_leaving (q : Provider) (m n : ℕ) :
    places.holds (.leaving q m) n ↔ m = n := by
  simp [places, Holding]

section Step

variable {cfg : Config} {profile : Profile} {s : ServiceState} {l : ServiceLabel} {t : Tid}
  {c : Call} {g m : Stage} {e : Effect} {w : World} {b : Bool} {v : Option Tid} {q : Provider}
  {n : ℕ}

theorem current_semaphores {r : Option ℕ}
    (h : Delivered (system cfg profile) s l t (.semaphore (.current q)) (.reply r w)) :
    w.process.semaphores = s.world.process.semaphores := by
  obtain ⟨i, -, -, ha⟩ | ⟨i, -, -, ha⟩ := h.answer
  · cases i <;> cases ha
    rfl
  · cases ha

theorem acquire_answer {r : Except Exn Unit}
    (h : Delivered (system cfg profile) s l t (.semaphore (.acquire q n)) (.reply r w)) :
    ∃ i x, (s.running = some t ∧ (s.world.process.semaphores n).enter t i = .reply r x ∨
        s.running = none ∧ (s.world.process.semaphores n).resume t i = .reply r x) ∧
      w.process.semaphores = Function.update s.world.process.semaphores n x := by
  obtain ⟨i, -, running, ha⟩ | ⟨i, -, idle, ha⟩ := h.answer
  · obtain ⟨p, hp, rfl⟩ := Answer.lift_reply ha.symm
    obtain ⟨x, hx, rfl⟩ := Answer.lift_reply hp
    exact ⟨i, x, .inl ⟨running, hx⟩, rfl⟩
  · obtain ⟨p, hp, rfl⟩ := Answer.lift_reply ha.symm
    obtain ⟨x, hx, rfl⟩ := Answer.lift_reply hp
    exact ⟨i, x, .inr ⟨idle, hx⟩, rfl⟩

theorem acquire_suspends
    (h : Delivered (system cfg profile) s l t (.semaphore (.acquire q n)) (.wait w)) :
    ∃ i x, s.running = some t ∧ (s.world.process.semaphores n).enter t i = .wait x ∧
      w.process.semaphores = Function.update s.world.process.semaphores n x := by
  obtain ⟨i, -, running, ha⟩ | ⟨i, -, -, ha⟩ := h.answer
  · obtain ⟨p, hp, rfl⟩ := Answer.lift_wait ha.symm
    obtain ⟨x, hx, rfl⟩ := Answer.lift_wait hp
    exact ⟨i, x, running, hx, rfl⟩
  · obtain ⟨p, hp, rfl⟩ := Answer.lift_wait ha.symm
    obtain ⟨x, hx, rfl⟩ := Answer.lift_wait hp
    exact absurd hx resume_never_waits

theorem release_answer {r : Unit}
    (h : Delivered (system cfg profile) s l t (.semaphore (.release q n)) (.reply r w)) :
    w.process.semaphores = Function.update s.world.process.semaphores n
      ((s.world.process.semaphores n).release t) := by
  obtain ⟨i, -, -, ha⟩ | ⟨i, -, -, ha⟩ := h.answer
  · cases i <;> cases ha
    rfl
  · cases ha

theorem on_of_goes (hg : Goes discipline t c m b v) :
    v = some t ∨ v = none ∧ ∀ n, ¬places.waits m n := by
  cases hg with
  | on => exact .inl rfl
  | ended post =>
    obtain rfl : m = .idle := post
    exact .inr ⟨rfl, not_waits_idle⟩

variable {of : ℕ → Provider} (inv : Lines of s.world s.running (discipline.statuses s))
  (ht : discipline.statuses s t = some ⟨c, g, false⟩)

include inv ht

theorem queues_reply {r : e.Reply} (hok : ok g e)
    (hd : Delivered (system cfg profile) s l t e (.reply r w))
    (hg : Goes discipline t c (next g e r) b v) :
    places.Queues w.process.semaphores v
      (Function.update (discipline.statuses s) t (some ⟨c, next g e r, b⟩)) := by
  have turn := delivered_turn hd
  have on := on_of_goes hg
  cases g with
  | idle =>
    by_cases choosing : ∃ q, e = .semaphore (.current q)
    · obtain ⟨q, rfl⟩ := choosing
      rw [current_semaphores hd]
      apply inv.queues.stays turn ht on
      · simp
      · simp [next]
    · have other (q : Provider) : e ≠ .semaphore (.current q) := fun hq => choosing ⟨q, hq⟩
      have away (a : SemaphoreEffect) : e ≠ .semaphore a := by
        rintro rfl
        cases a with
        | current q => exact other q rfl
        | _ => exact hok trivial
      rw [next_idle hok r other] at on ⊢
      rw [(sameSlots_of_touches (reply_touches hd) away).semaphores]
      apply inv.queues.stays turn ht on
      · simp
      · simp
  | chosen q n =>
    cases n with
    | some n =>
      obtain rfl := ok_waiting hok
      obtain ⟨i, x, answered, same⟩ := acquire_answer hd
      rw [same]
      apply inv.queues.acquire ht _ _ answered on
      · intro k
        cases r with
        | error x => simp [next]
        | ok _ => simp [next, eq_comm]
      · simp [eq_comm]
      · simp
    | none =>
      obtain ⟨paymentId, amount, currency, token, rfl⟩ := ok_unlimited hok
      rw [(provider_same hd).semaphores]
      apply inv.queues.stays turn ht on
      · simp
      · simp [next]
  | granted q n =>
    obtain ⟨paymentId, amount, currency, token, rfl⟩ := ok_granted hok
    rw [(provider_same hd).semaphores]
    apply inv.queues.stays turn ht on
    · simp
    · simp [next]
  | calling q n =>
    obtain ⟨paymentId, rfl⟩ := ok_calling hok
    rw [(provider_same hd).semaphores]
    apply inv.queues.stays turn ht on
    · simp
    · cases n <;> simp [next]
  | leaving q n =>
    obtain rfl := ok_leaving hok
    rw [release_answer hd]
    apply inv.queues.release ht _ turn _ on
    · simp [next]
    · simp
    · simp [eq_comm]

/-- A call chooses the semaphore in force, and comes to no other one after that. -/
theorem used_next {r : e.Reply} (hok : ok g e)
    (hd : Delivered (system cfg profile) s l t e (.reply r w))
    (at_ : Occupies (next g e r) q n) : Given of s.world.process q n := by
  cases g with
  | idle =>
    by_cases choosing : ∃ q, e = .semaphore (.current q)
    · obtain ⟨p, rfl⟩ := choosing
      obtain ⟨rfl, rfl⟩ : p = q ∧ r = some n := by simpa [Occupies, Holding, next] using at_
      exact inv.known (current_reply hd).symm
    · rw [next_idle hok r fun q hq => choosing ⟨q, hq⟩] at at_
      simp [Occupies, Holding] at at_
  | chosen p m =>
    cases m with
    | some m =>
      obtain rfl := ok_waiting hok
      obtain ⟨rfl, rfl⟩ : p = q ∧ m = n := by
        cases r with
        | error x => simp [Occupies, Holding, next] at at_
        | ok _ => simpa [Occupies, Holding, next] using at_
      exact inv.used ht (.inl rfl)
    | none =>
      obtain ⟨paymentId, amount, currency, token, rfl⟩ := ok_unlimited hok
      simp [Occupies, Holding, next] at at_
  | granted p m =>
    obtain ⟨paymentId, amount, currency, token, rfl⟩ := ok_granted hok
    obtain ⟨rfl, rfl⟩ : p = q ∧ m = n := by simpa [Occupies, Holding, next] using at_
    exact inv.used ht (.inr (.inl rfl))
  | calling p m =>
    obtain ⟨paymentId, rfl⟩ := ok_calling hok
    cases m with
    | none => simp [Occupies, Holding, next] at at_
    | some m =>
      obtain ⟨rfl, rfl⟩ : p = q ∧ m = n := by simpa [Occupies, Holding, next] using at_
      exact inv.used ht (.inr (.inr (.inl rfl)))
  | leaving p m =>
    obtain rfl := ok_leaving hok
    simp [Occupies, Holding, next] at at_

theorem queues_wait (hok : ok g e)
    (hd : Delivered (system cfg profile) s l t e (.wait w)) :
    places.Queues w.process.semaphores none (discipline.statuses s) := by
  have turn := delivered_turn hd
  by_cases acquiring : ∃ a, e = .semaphore a
  · obtain ⟨a, rfl⟩ := acquiring
    cases a with
    | acquire q n =>
      obtain ⟨i, x, running, hw, same⟩ := acquire_suspends hd
      have waiting : g = .chosen q (some n) := by
        cases g with
        | chosen p m =>
          cases m with
          | some m =>
            obtain ⟨rfl, rfl⟩ := hok
            rfl
          | none => exact hok.elim
        | idle => exact absurd trivial hok
        | _ => exact hok.elim
      subst waiting
      rw [same]
      apply inv.queues.enqueue ht _ _ running hw
      · simp [eq_comm]
      · simp
    | current q =>
      obtain ⟨i, -, -, ha⟩ | ⟨i, -, -, ha⟩ := hd.answer
      · cases i <;> cases ha
      · cases ha
    | release q n => exact absurd hd release_never_waits
  · have other (a : SemaphoreEffect) : e ≠ .semaphore a := fun ha => acquiring ⟨a, ha⟩
    rw [(sameSlots_of_touches (wait_touches hd) other).semaphores]
    apply inv.queues.suspend turn ht
    rintro k ⟨q, rfl⟩
    exact other _ (ok_waiting hok)

end Step

theorem Given.quiet {of : ℕ → Provider} {p p' : Process} {q : Provider} {n : ℕ} {t : Tid}
    (h : Given of p q n) (quiet : Quiet t p p') : Given of p' q n where
  provider := h.provider
  bound := by
    rw [quiet.next]
    exact h.bound
  limit := by
    rw [(quiet.spares n).limit]
    exact h.limit

section Configured

variable {of : ℕ → Provider} {p : Process} {q provider : Provider} {n limit : ℕ}

theorem Given.configured (h : Given of p q n) :
    Given (Function.update of p.nextSemaphore provider) (p.setProviderConcurrency provider limit)
      q n := by
  have old : n ≠ p.nextSemaphore := h.bound.ne
  constructor
  · rw [Function.update_of_ne old]
    exact h.provider
  · exact Nat.lt_succ_of_lt h.bound
  · simp only [Process.setProviderConcurrency, Function.update_of_ne old]
    exact h.limit

theorem known_given (known : ∀ {q n}, p.currentSemaphore q = some n → Given of p q n)
    (at_ : (p.setProviderConcurrency provider limit).currentSemaphore q = some n) :
    Given (Function.update of p.nextSemaphore provider) (p.setProviderConcurrency provider limit)
      q n := by
  by_cases same : q = provider
  · subst same
    simp only [Process.setProviderConcurrency, Function.update_self] at at_
    split at at_
    · cases at_
    · rename_i positive
      cases at_
      constructor
      · rw [Function.update_self]
      · exact Nat.lt_succ_self _
      · simp only [Process.setProviderConcurrency, Function.update_self, Semaphore.make]
        omega
  · simp only [Process.setProviderConcurrency, Function.update_of_ne same] at at_
    exact (known at_).configured

theorem Lines.configured {w : World} {st : Statuses} (inv : Lines of w none st) :
    Lines (Function.update of w.process.nextSemaphore provider)
      { w with process := w.process.setProviderConcurrency provider limit } none st where
  known := fun at_ => known_given inv.known at_
  used := fun hx at_ => (inv.used hx at_).configured
  queues := by
    intro n
    by_cases new : n = w.process.nextSemaphore
    · have unused {t : Tid} {x : Status Call Stage} (hx : st t = some x) {q : Provider}
          (at_ : Occupies x.phase q n) : False := (inv.used hx at_).bound.ne new
      subst new
      simp only [Process.setProviderConcurrency, Function.update_self]
      apply (manned_make limit).congr
      · intro u
        refine ⟨False.elim, ?_⟩
        rintro ⟨-, x, hx, q, waiting⟩
        exact unused hx (.inl waiting)
      · intro u
        refine ⟨False.elim, ?_⟩
        rintro ⟨x, hx, q, holding⟩
        exact unused hx (.inr holding)
    · simp only [Process.setProviderConcurrency, Function.update_of_ne new]
      exact inv.queues n

end Configured

theorem lines_maintained (cfg : Config) (profile : Profile) :
    Maintains (system cfg profile) (fun _ _ => True) discipline
      fun w running st => ∃ of, Lines of w running st where
  follows := run_follows cfg
  call := by
    rintro s t c b v _ ⟨of, inv⟩ new hg
    refine ⟨of, inv.known, ?_, inv.queues.call (.inr rfl) new (on_of_goes hg) not_holds_idle⟩
    intro u x q n hx at_
    obtain ⟨rfl, rfl⟩ | ⟨-, hx⟩ := update_cases hx
    · exact absurd at_ (by simp [discipline, Occupies, Holding])
    · exact inv.used hx at_
  reply := by
    rintro s l t c g e r w _ ⟨of, inv⟩ ht hok hd
    have quiet := reply_quiet hd
    refine ⟨trivial, fun b v hg => ⟨of, ?_, ?_, queues_reply inv ht hok hd hg⟩⟩
    · intro q n at_
      rw [quiet.current] at at_
      exact (inv.known at_).quiet quiet
    · intro u x q n hx at_
      obtain ⟨rfl, rfl⟩ | ⟨-, hx⟩ := update_cases hx
      · exact (used_next inv ht hok hd at_).quiet quiet
      · exact (inv.used hx at_).quiet quiet
  wait := by
    rintro s l t c g e w _ ⟨of, inv⟩ ht hok hd
    have quiet := wait_quiet hd
    refine ⟨of, ?_, fun hx at_ => (inv.used hx at_).quiet quiet, queues_wait inv ht hok hd⟩
    intro q n at_
    rw [quiet.current] at at_
    exact (inv.known at_).quiet quiet
  outside := by
    rintro s a w _ ⟨of, inv⟩ h
    cases a with
    | setProviderConcurrency provider limit =>
      cases h
      exact ⟨_, inv.configured⟩
    | tick elapsed =>
      obtain ⟨redis, -, rfl⟩ := Option.map_eq_some_iff.mp h
      exact ⟨of, inv.known, inv.used, inv.queues⟩

theorem lines_initial (circuit : CircuitBreaker) (concurrency : List (Provider × ℕ)) :
    ∃ of, Lines of (.initial circuit concurrency) none fun _ => none := by
  have all (l : List (Provider × ℕ)) (p : Process)
      (h : ∃ of, Lines of ⟨p, Shared.initial⟩ none fun _ => none) :
      ∃ of, Lines of ⟨l.foldl (fun p c => p.setProviderConcurrency c.1 c.2) p, Shared.initial⟩
        none fun _ => none := by
    induction l generalizing p with
    | nil => exact h
    | cons c l ih =>
      obtain ⟨of, inv⟩ := h
      exact ih _ ⟨_, inv.configured⟩
  apply all
  refine ⟨fun _ => "", ?_, ?_, ?_⟩
  · intro q n at_
    cases at_
  · intro t u q n hx
    cases hx
  · intro n
    apply (manned_make 0).congr
    · simp [Places.InLine]
    · simp [Places.Inside]

section Reached

variable {s : ServiceState} {t : Tid} {q : Provider} {n : ℕ} (kept : discipline.Kept s)

include kept

theorem chosen_of_at (reached : s.At t (.semaphore (.acquire q n))) :
    ∃ x, discipline.statuses s t = some x ∧ x.phase = .chosen q (some n) := by
  obtain ⟨T, task, head⟩ := reached
  refine ⟨_, discipline.statuses_of_task task, ?_⟩
  obtain ⟨k, code⟩ := Coroutine.perform_of_head head
  have follows := kept t T task
  rw [code] at follows
  have hok : ok (discipline.phase T) (.semaphore (.acquire q n)) := follows.1
  show discipline.phase T = _
  generalize discipline.phase T = g at hok
  cases g with
  | chosen p m =>
    cases m with
    | some m =>
      obtain ⟨rfl, rfl⟩ := hok
      rfl
    | none => exact hok.elim
  | idle => exact absurd trivial hok
  | _ => exact hok.elim

theorem at_of_stage {x : Status Call Stage} (hx : discipline.statuses s t = some x)
    (busy : x.phase ≠ .idle) : ∃ e, s.At t e ∧ ok x.phase e := by
  obtain ⟨T, task, rfl⟩ := discipline.statuses_some hx
  have follows := kept t T task
  obtain ⟨call, code, trace⟩ := T
  cases code with
  | done a => exact absurd follows busy
  | perform e k => exact ⟨e, ⟨_, task, rfl⟩, follows.1⟩

end Reached

/-- While a payment waits for a semaphore of its provider, one of those in line has been handed a
slot, or as many as its limit allows are inside it, all of them at the provider. -/
def Conserving (s : ServiceState) : Prop :=
  ∀ {t q n}, s.At t (.semaphore (.acquire q n)) →
    0 < (s.world.process.semaphores n).limit ∧
    ((∃ u ∈ (s.world.process.semaphores n).woken, s.At u (.semaphore (.acquire q n))) ∨
      (s.world.process.semaphores n).holders.Nodup ∧
      (s.world.process.semaphores n).holders.length = (s.world.process.semaphores n).limit ∧
      ∀ u ∈ (s.world.process.semaphores n).holders,
        ∃ paymentId, s.At u (.provider (.finishPayment q paymentId)))

section Conserving

variable {cfg : Config} {profile : Profile} {circuit : CircuitBreaker}
  {concurrency : List (Provider × ℕ)} {s : ServiceState}
  (h : Reaches (system cfg profile) (fun _ _ => True) (.empty (.initial circuit concurrency)) s)
  (idle : s.running = none)

include h idle

/-- A payment inside a semaphore is at the provider, when no task runs. -/
theorem finishing_of_holding {of : ℕ → Provider}
    (inv : Lines of s.world s.running (discipline.statuses s)) (kept : discipline.Kept s) {u : Tid}
    {n : ℕ} (inside : u ∈ (s.world.process.semaphores n).holders) :
    ∃ paymentId, s.At u (.provider (.finishPayment (of n) paymentId)) := by
  obtain ⟨x, hx, q, holding⟩ := ((inv.queues n).held u).mp inside
  obtain rfl := (inv.used hx (.inr holding)).provider
  have busy : x.phase ≠ .idle := by
    obtain at_ | at_ | at_ := holding <;> rw [at_] <;> exact fun h => by cases h
  obtain ⟨e, reached, hok⟩ := at_of_stage kept hx busy
  have off : s.running ≠ some u := by
    rw [idle]
    exact fun h => by cases h
  obtain ⟨v, l, w, waited⟩ := suspended_waited h reached off
  obtain at_ | at_ | at_ := holding
  · rw [at_] at hok
    obtain ⟨_, _, _, _, rfl⟩ := ok_granted hok
    exact absurd waited start_never_waits
  · rw [at_] at hok
    obtain ⟨paymentId, rfl⟩ := ok_calling hok
    exact ⟨paymentId, reached⟩
  · rw [at_] at hok
    obtain rfl := ok_leaving hok
    exact absurd waited release_never_waits

/-- However calls come, go and are cancelled and limits are set, no slot of a provider is left
free while a payment waits for one. -/
theorem bulkhead_conserving : Conserving s := by
  obtain ⟨kept, of, inv⟩ := (lines_maintained cfg profile).reaches_empty
    (lines_initial circuit concurrency) h
  intro t q n reached
  obtain ⟨x, hx, chosen⟩ := chosen_of_at kept reached
  obtain ⟨rfl, -, positive⟩ := inv.used hx (.inl chosen)
  have waiting : places.InLine n s.running (discipline.statuses s) t := by
    refine ⟨?_, x, hx, of n, chosen⟩
    rw [idle]
    exact fun h => by cases h
  refine ⟨positive, ?_⟩
  by_cases asleep : (s.world.process.semaphores n).woken = []
  · right
    refine ⟨(List.nodup_append.mp (inv.queues n).nodup).2.1,
      (inv.queues n).full waiting asleep, fun u inside => ?_⟩
    exact finishing_of_holding h idle inv kept inside
  · left
    obtain ⟨u, woken⟩ := List.exists_mem_of_ne_nil _ asleep
    obtain ⟨-, y, hy, q, line⟩ := ((inv.queues n).queued u).mp (.inr woken)
    have same := (inv.used hy (.inl line)).provider
    obtain ⟨e, reached, hok⟩ := at_of_stage kept hy (by rw [line]; exact fun h => by cases h)
    rw [line] at hok
    obtain rfl := ok_waiting hok
    exact ⟨u, woken, same ▸ reached⟩

end Conserving

open Scenario in
/-- Two payments wait while the one slot is taken. -/
theorem bulkhead_conserving_full : ∃ s : ServiceState, s.running = none ∧
    s.At 0 (.provider (.finishPayment "stripe" 0)) ∧ s.At 1 (.semaphore (.acquire "stripe" 0)) ∧
    s.At 2 (.semaphore (.acquire "stripe" 0)) ∧ Conserving s := by
  let labels : List ServiceLabel :=
    create 0 0 (card "a") 1 ++ ask 0 0 ++ .enter 0 .go :: start 0 ++
    create 1 0 (card "b") 1 ++ ask 1 0 ++ .enter 1 .go ::
    create 2 0 (card "c") 1 ++ ask 2 0 ++ [.enter 2 .go]
  have h : ∃ s ∈ run (system (service ["stripe"] 1) {}) labels
      (.empty (.initial fragile [("stripe", 1)])),
      s.running = none ∧ s.At 0 (.provider (.finishPayment "stripe" 0)) ∧
      s.At 1 (.semaphore (.acquire "stripe" 0)) ∧ s.At 2 (.semaphore (.acquire "stripe" 0)) := by
    decide +kernel
  obtain ⟨s, moved, idle, first, second, third⟩ := h
  exact ⟨s, idle, first, second, third, bulkhead_conserving
    (run_reaches _ (throughout_of_forall _ (fun _ _ _ => trivial) _) moved) idle⟩

end PySwitch.Slots
