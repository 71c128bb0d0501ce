import PySwitch.Inflight
import PySwitch.RetryProtocol
import PySwitch.VisitInvariant

namespace PySwitch.Retries

open Async Scenario
open Visits (started started_circuit)

/-- The payment calls at a provider that followed an earlier one for the same payment. -/
def repeats (provider : Provider) : List Happening → ℕ
  | [] => 0
  | .paymentStarted _ p id :: log =>
    (if p = provider ∧ started id p log ≠ 0 then 1 else 0) + repeats provider log
  | _ :: log => repeats provider log

abbrev Statuses : Type := Tid → Option (Status Call Stage)

abbrev Stages : Type := Tid → Option Stage

def stages (st : Statuses) : Stages := fun t => (st t).map Status.phase

/-- The call of task `t` owes a retry at the provider `p`. -/
def Owes (f : Stages) (p : Provider) (t : Tid) : Prop := ∃ g, f t = some g ∧ g.due = some p

/-- Of `counted` retries at a provider `made` have been made, and the others are owed. -/
def Tally (f : Stages) (p : Provider) (counted made : ℕ) : Prop :=
  ∃ F : Finset Tid, (∀ t, t ∈ F ↔ Owes f p t) ∧ counted = made + F.card

structure Books (w : World) (f : Stages) : Prop where
  counted : ∀ p, Tally f p (w.process.retriesTotal p) (repeats p w.log)
  sent : ∀ {t g id}, f t = some g → g.payment = some id →
    ∀ p, started id p w.log ≠ 0 ↔ p ∈ g.sent
  unsent : ∀ {t g}, f t = some g → g.payment = none → g.sent = []
  drawn : ∀ {t g id}, f t = some g → g.payment = some id → id < w.shared.nextUuid
  own : ∀ {t t' g g' id}, f t = some g → f t' = some g' → g.payment = some id →
    g'.payment = some id → t = t'
  logged : ∀ {id p}, started id p w.log ≠ 0 → id < w.shared.nextUuid

section Stages

variable {f : Stages} {st : Statuses} {t u : Tid} {g : Stage} {p : Provider} {w w' : World}

theorem stages_update {c : Call} {b : Bool} :
    stages (Function.update st t (some ⟨c, g, b⟩)) = Function.update (stages st) t (some g) := by
  funext u
  by_cases hu : u = t
  · subst hu
    simp [stages]
  · simp [stages, hu]

theorem owes_self : Owes (Function.update f t (some g)) p t ↔ g.due = some p := by
  simp [Owes]

theorem owes_other (hu : u ≠ t) {x : Option Stage} :
    Owes (Function.update f t x) p u ↔ Owes f p u := by
  simp only [Owes, Function.update_of_ne hu]

/-- The number of retries and the calls are the same. -/
structure Same (w w' : World) : Prop where
  retries : w'.process.retriesTotal = w.process.retriesTotal
  nextUuid : w'.shared.nextUuid = w.shared.nextUuid
  repeats : ∀ p, repeats p w'.log = repeats p w.log
  started : ∀ id p, started id p w'.log = started id p w.log

theorem Books.same (h : Books w f) (same : Same w w') : Books w' f where
  counted := fun p => by
    rw [same.retries, same.repeats]
    exact h.counted p
  sent := fun hg hid p => by
    rw [same.started]
    exact h.sent hg hid p
  unsent := h.unsent
  drawn := fun hg hid => by
    rw [same.nextUuid]
    exact h.drawn hg hid
  own := h.own
  logged := fun made => by
    rw [same.nextUuid]
    rw [same.started] at made
    exact h.logged made

variable {counted made : ℕ}

theorem Tally.keep (h : Tally f p counted made) (same : Owes f p t ↔ g.due = some p) :
    Tally (Function.update f t (some g)) p counted made := by
  obtain ⟨F, hF, total⟩ := h
  refine ⟨F, fun u => (hF u).trans ?_, total⟩
  by_cases hu : u = t
  · subst hu
    rw [owes_self, same]
  · rw [owes_other hu]

theorem Tally.owe (h : Tally f p counted made) (ht : ¬ Owes f p t) (due : g.due = some p) :
    Tally (Function.update f t (some g)) p (counted + 1) made := by
  obtain ⟨F, hF, rfl⟩ := h
  refine ⟨insert t F, fun u => ?_, ?_⟩
  · rw [Finset.mem_insert, hF]
    by_cases hu : u = t
    · subst hu
      simp [owes_self, due]
    · simp [owes_other hu, hu]
  · rw [Finset.card_insert_of_notMem fun h => ht ((hF t).mp h), Nat.add_assoc]

theorem Tally.pay (h : Tally f p counted made) (ht : Owes f p t) (due : g.due = none) :
    Tally (Function.update f t (some g)) p counted (1 + made) := by
  obtain ⟨F, hF, rfl⟩ := h
  refine ⟨F.erase t, fun u => ?_, ?_⟩
  · rw [Finset.mem_erase, hF]
    by_cases hu : u = t
    · subst hu
      simp [owes_self, due]
    · simp [owes_other hu, hu]
  · have one := Finset.card_erase_add_one ((hF t).mpr ht)
    omega

theorem update_same (hg : f t = some g) : Function.update f t (some g) = f := by
  rw [← hg, Function.update_eq_self]

theorem owes_iff (hg : f t = some g) : Owes f p t ↔ g.due = some p := by
  constructor
  · rintro ⟨g', hg', due⟩
    obtain rfl := Option.some.inj (hg.symm.trans hg')
    exact due
  · exact fun due => ⟨g, hg, due⟩

/-- An identifier is drawn: it is the payment of the call, unless the call has one. -/
theorem Books.draw (h : Books w f) (hg : f t = some g) :
    Books { w with shared.nextUuid := w.shared.nextUuid + 1 }
      (Function.update f t (some (g.draw w.shared.nextUuid))) := by
  cases payment : g.payment with
  | some id =>
    have known : g.draw w.shared.nextUuid = g := draw_known payment _
    rw [known, update_same hg]
    exact ⟨h.counted, h.sent, h.unsent, fun hu hid => Nat.lt_succ_of_lt (h.drawn hu hid), h.own,
      fun made => Nat.lt_succ_of_lt (h.logged made)⟩
  | none =>
    have drawn : g.draw w.shared.nextUuid = { g with payment := some w.shared.nextUuid } := by
      rw [Stage.draw, payment, Option.getD_none]
    have fresh (p : Provider) : started w.shared.nextUuid p w.log = 0 := by
      by_contra made
      exact Nat.lt_irrefl _ (h.logged made)
    rw [drawn]
    constructor
    · exact fun q => (h.counted q).keep ((owes_iff hg).trans Iff.rfl)
    · intro u x id hu hid q
      obtain ⟨rfl, rfl⟩ | ⟨-, hu⟩ := update_cases hu
      · obtain rfl := Option.some.inj hid
        refine iff_of_false (not_not.mpr (fresh q)) ?_
        rw [h.unsent hg payment]
        exact List.not_mem_nil
      · exact h.sent hu hid q
    · intro u x hu hid
      obtain ⟨rfl, rfl⟩ | ⟨-, hu⟩ := update_cases hu
      · cases hid
      · exact h.unsent hu hid
    · intro u x id hu hid
      obtain ⟨rfl, rfl⟩ | ⟨-, hu⟩ := update_cases hu
      · obtain rfl := Option.some.inj hid
        exact Nat.lt_succ_self _
      · exact Nat.lt_succ_of_lt (h.drawn hu hid)
    · intro u u' x x' id hu hu' hid hid'
      obtain ⟨rfl, rfl⟩ | ⟨-, first⟩ := update_cases hu
      · obtain ⟨rfl, rfl⟩ | ⟨-, second⟩ := update_cases hu'
        · rfl
        · obtain rfl := Option.some.inj hid
          exact absurd (h.drawn second hid') (Nat.lt_irrefl _)
      · obtain ⟨rfl, rfl⟩ | ⟨-, second⟩ := update_cases hu'
        · obtain rfl := Option.some.inj hid'
          exact absurd (h.drawn first hid) (Nat.lt_irrefl _)
        · exact h.own first second hid hid'
    · exact fun made => Nat.lt_succ_of_lt (h.logged made)

theorem send_sent (g : Stage) (p q : Provider) : q ∈ (g.send p).sent ↔ q = p ∨ q ∈ g.sent := by
  by_cases here : p ∈ g.sent
  · rw [Stage.send, if_pos here]
    constructor
    · exact .inr
    · rintro (rfl | hq)
      · exact here
      · exact hq
  · rw [Stage.send, if_neg here]
    exact List.mem_cons

theorem send_payment (g : Stage) (p : Provider) :
    (g.send p).payment = g.payment ∧ (g.send p).due = none := by
  unfold Stage.send
  split <;> exact ⟨rfl, rfl⟩

theorem started_note (t : Tid) (p q : Provider) (id id' : Uuid) (log : List Happening) :
    started id' q (.paymentStarted t p id :: log) ≠ 0 ↔
      p = q ∧ id = id' ∨ started id' q log ≠ 0 := by
  rw [started]
  split
  · rename_i same
    exact iff_of_true (by omega) (.inl same)
  · rename_i other
    rw [Nat.zero_add, or_iff_right other]

theorem Books.own_update (h : Books w f) (hg : f t = some g) {g' : Stage}
    (same : g'.payment = g.payment) {u u' : Tid} {x x' : Stage} {id : Uuid}
    (hu : Function.update f t (some g') u = some x)
    (hu' : Function.update f t (some g') u' = some x') (hid : x.payment = some id)
    (hid' : x'.payment = some id) : u = u' := by
  obtain ⟨rfl, rfl⟩ | ⟨-, first⟩ := update_cases hu
  · obtain ⟨rfl, rfl⟩ | ⟨-, second⟩ := update_cases hu'
    · rfl
    · exact h.own hg second (same.symm.trans hid) hid'
  · obtain ⟨rfl, rfl⟩ | ⟨-, second⟩ := update_cases hu'
    · exact h.own first hg hid (same.symm.trans hid')
    · exact h.own first second hid hid'

/-- A payment call is a retry that was owed, or the first one at its provider. -/
theorem Books.send (h : Books w f) (hg : f t = some g) {id : Uuid} (payment : g.payment = some id)
    (asks : g.due = none ∧ p ∉ g.sent ∨ g.due = some p ∧ p ∈ g.sent) :
    Books (w.note (.paymentStarted t p id)) (Function.update f t (some (g.send p))) := by
  have log : (w.note (.paymentStarted t p id)).log = .paymentStarted t p id :: w.log := rfl
  obtain ⟨own, free⟩ := send_payment g p
  constructor
  · intro q
    rw [log, repeats]
    by_cases again : g.due = some p
    · have here : p ∈ g.sent := by
        obtain ⟨due, -⟩ | ⟨-, here⟩ := asks
        · cases due.symm.trans again
        · exact here
      have made : started id p w.log ≠ 0 := (h.sent hg payment p).mpr here
      by_cases same : p = q
      · subst same
        rw [if_pos ⟨rfl, made⟩]
        exact (h.counted p).pay ((owes_iff hg).mpr again) free
      · rw [if_neg fun both => same both.1, Nat.zero_add]
        apply (h.counted q).keep
        rw [owes_iff hg, again, free]
        simp [same]
    · have first : g.due = none ∧ p ∉ g.sent := asks.resolve_right fun both => again both.1
      have new : started id p w.log = 0 := by
        by_contra made
        exact first.2 ((h.sent hg payment p).mp made)
      rw [if_neg fun both => both.2 new, Nat.zero_add]
      apply (h.counted q).keep
      rw [owes_iff hg, first.1, free]
  · intro u x id' hu hid q
    rw [log, started_note]
    obtain ⟨rfl, rfl⟩ | ⟨other, hu⟩ := update_cases hu
    · obtain rfl : id = id' := Option.some.inj (payment.symm.trans (own.symm.trans hid))
      rw [send_sent, h.sent hg payment q]
      simp [eq_comm]
    · have apart : ¬ (p = q ∧ id = id') := by
        rintro ⟨-, rfl⟩
        exact other (h.own hu hg hid payment)
      rw [or_iff_right apart]
      exact h.sent hu hid q
  · intro u x hu hid
    obtain ⟨rfl, rfl⟩ | ⟨-, hu⟩ := update_cases hu
    · cases payment.symm.trans (own.symm.trans hid)
    · exact h.unsent hu hid
  · intro u x id' hu hid
    obtain ⟨rfl, rfl⟩ | ⟨-, hu⟩ := update_cases hu
    · exact h.drawn hg (own.symm.trans hid)
    · exact h.drawn hu hid
  · exact h.own_update hg own
  · intro id' q made
    rw [log, started_note] at made
    obtain ⟨-, rfl⟩ | made := made
    · exact h.drawn hg payment
    · exact h.logged made

/-- A retry is counted, and owed from then on. -/
theorem Books.owe (h : Books w f) (hg : f t = some g) (due : g.due = none)
    (w' : World) (retries : w'.process.retriesTotal =
      Function.update w.process.retriesTotal p (w.process.retriesTotal p + 1))
    (shared : w'.shared = w.shared) : Books w' (Function.update f t (some (g.owe p))) := by
  have log : w'.log = w.log := congrArg Shared.log shared
  constructor
  · intro q
    rw [retries, log]
    by_cases same : q = p
    · subst same
      rw [Function.update_self]
      refine (h.counted q).owe (fun owes => ?_) rfl
      cases due.symm.trans ((owes_iff hg).mp owes)
    · rw [Function.update_of_ne same]
      apply (h.counted q).keep
      rw [owes_iff hg, due]
      simp [Stage.owe, Ne.symm same]
  · intro u x id hu hid q
    rw [log]
    obtain ⟨rfl, rfl⟩ | ⟨-, hu⟩ := update_cases hu
    · exact h.sent hg hid q
    · exact h.sent hu hid q
  · intro u x hu hid
    obtain ⟨rfl, rfl⟩ | ⟨-, hu⟩ := update_cases hu
    · exact h.unsent (g := g) hg hid
    · exact h.unsent hu hid
  · intro u x id hu hid
    rw [shared]
    obtain ⟨rfl, rfl⟩ | ⟨-, hu⟩ := update_cases hu
    · exact h.drawn hg hid
    · exact h.drawn hu hid
  · have same : (g.owe p).payment = g.payment := rfl
    intro u u' x x' id hu hu' hid hid'
    exact h.own_update hg same hu hu' hid hid'
  · intro id q made
    rw [shared]
    rw [log] at made
    exact h.logged made

theorem Books.spawn (h : Books w f) (new : f t = none) :
    Books w (Function.update f t (some .start)) where
  counted := fun p => by
    apply (h.counted p).keep
    constructor
    · rintro ⟨g, hg, -⟩
      cases new.symm.trans hg
    · nofun
  sent := fun hu hid q => by
    obtain ⟨rfl, rfl⟩ | ⟨-, hu⟩ := update_cases hu
    · cases hid
    · exact h.sent hu hid q
  unsent := fun hu hid => by
    obtain ⟨rfl, rfl⟩ | ⟨-, hu⟩ := update_cases hu
    · rfl
    · exact h.unsent hu hid
  drawn := fun hu hid => by
    obtain ⟨rfl, rfl⟩ | ⟨-, hu⟩ := update_cases hu
    · cases hid
    · exact h.drawn hu hid
  own := fun hu hu' hid hid' => by
    obtain ⟨rfl, rfl⟩ | ⟨-, first⟩ := update_cases hu
    · cases hid
    · obtain ⟨rfl, rfl⟩ | ⟨-, second⟩ := update_cases hu'
      · cases hid'
      · exact h.own first second hid hid'
  logged := h.logged

end Stages

/-- The task a label cancels, or whose outbox or store it makes fail. -/
def cuts : ServiceLabel → Option Tid
  | .enter t .cancel => some t
  | .resume t .cancel => some t
  | .enter t (.fail _ _) => some t
  | .resume t (.fail _ _) => some t
  | _ => none

/-- What fails outside the providers fails with no `ProviderError`. -/
def plain : ServiceLabel → Prop
  | .enter _ (.fail (.provider _) _) => False
  | .resume _ (.fail (.provider _) _) => False
  | _ => True

/-- An error that can be retried is not the one of the last call allowed, nor of a call whose retry
has a delay too large for a `float`, the circuit lets every retry through, and no call that owes
one is cancelled or fails. -/
structure Followed (cfg : Config) (s : ServiceState) (l : ServiceLabel) : Prop where
  budget : ∀ t g p id error, stages ((discipline cfg).statuses s) t = some g →
    s.At t (.provider (.finishPayment p id)) →
    l = .resume t (.outcome (.error (.provider error))) → isRetryable error = true →
      g.attempts ≠ cfg.retryPolicy.maxAttempts ∧ g.attempts ≤ 1024
  permit : ∀ t g p now, stages ((discipline cfg).statuses s) t = some g →
    s.At t (.circuit (.allowRequest p)) → l = .enter t (.at now) → g.due ≠ none →
      ((s.world.circuit p).allowRequest now).1 = true
  uncut : ∀ t g, stages ((discipline cfg).statuses s) t = some g → cuts l = some t → g.due = none
  plain : plain l

section Step

variable {cfg : Config} {profile : Profile} {s : ServiceState} {l : ServiceLabel} {t : Tid}
  {e : Effect} {r : e.Reply} {w : World} {g : Stage}

theorem stats_reply {a : StatsEffect} {r : Unit}
    (h : Delivered (system cfg profile) s l t (.stats a) (.reply r w)) :
    w.shared = s.world.shared ∧ w.process.retriesTotal = match a with
      | .countRetry p => Function.update s.world.process.retriesTotal p
          (s.world.process.retriesTotal p + 1)
      | _ => s.world.process.retriesTotal := by
  obtain ⟨i, -, -, ha⟩ | ⟨i, -, -, ha⟩ := h.answer
  · obtain ⟨q, hq, rfl⟩ := Answer.lift_reply ha.symm
    cases a <;> cases i <;> cases hq <;> exact ⟨rfl, rfl⟩
  · cases ha

theorem repeats_circuit {new : List Happening} (h : ∀ x ∈ new, Happening.ofCircuit x = true)
    (p : Provider) (log : List Happening) : repeats p (new ++ log) = repeats p log := by
  induction new with
  | nil => rfl
  | cons x new ih =>
    obtain ⟨hx, hn⟩ := List.forall_mem_cons.mp h
    rw [List.cons_append, ← ih hn]
    cases x <;> first | rfl | cases hx

/-- The effects that neither count a retry, nor send a payment, nor draw an identifier. -/
def quiet : Effect → Prop
  | .host .uuid4 => False
  | .provider (.startPayment _ _ _ _ _) => False
  | .stats _ => False
  | _ => True

theorem quiet_same {w w' : World} (h : e.Touches w w') (he : quiet e) : Same w w' := by
  cases e with
  | circuit e =>
    obtain ⟨_, new, hn, rfl⟩ := h
    exact ⟨rfl, rfl, fun p => repeats_circuit hn p _, fun id p => started_circuit hn id p _⟩
  | provider e =>
    obtain rfl | ⟨x, hx, rfl⟩ := h
    · exact ⟨rfl, rfl, fun _ => rfl, fun _ _ => rfl⟩
    · cases hx with
      | started => exact he.elim
      | ended => exact ⟨rfl, rfl, fun _ => rfl, fun _ _ => rfl⟩
      | refunded => exact ⟨rfl, rfl, fun _ => rfl, fun _ _ => rfl⟩
  | host e =>
    obtain rfl | ⟨rfl, -⟩ := h
    · exact ⟨rfl, rfl, fun _ => rfl, fun _ _ => rfl⟩
    · exact he.elim
  | stats e => exact he.elim
  | _ =>
    obtain ⟨_, rfl⟩ := h
    exact ⟨rfl, rfl, fun _ => rfl, fun _ _ => rfl⟩

theorem next_quiet (he : quiet e) (r : e.Reply) : next g e r = g := by
  cases e with
  | host e => cases e <;> first | rfl | exact he.elim
  | provider e => cases e <;> first | rfl | exact he.elim
  | stats e => exact he.elim
  | _ => rfl

theorem books_reply (books : Books s.world (stages ((discipline cfg).statuses s)))
    (hg : stages ((discipline cfg).statuses s) t = some g) (hok : ok g e)
    (h : Delivered (system cfg profile) s l t e (.reply r w)) :
    Books w (Function.update (stages ((discipline cfg).statuses s)) t (some (next g e r))) := by
  by_cases he : quiet e
  · rw [next_quiet he, update_same hg]
    exact books.same (quiet_same (reply_touches h) he)
  cases e with
  | host e =>
    cases e with
    | uuid4 =>
      obtain ⟨rfl, rfl⟩ := uuid4_reply h
      exact books.draw hg
    | _ => exact absurd trivial he
  | provider e =>
    cases e with
    | startPayment p id amount currency token =>
      obtain rfl := startPayment_reply h
      exact books.send hg hok.1 hok.2
    | _ => exact absurd trivial he
  | stats a =>
    obtain ⟨shared, retries⟩ := stats_reply h
    cases a with
    | countRetry p => exact books.owe hg hok w retries shared
    | _ =>
      have same : Same s.world w := by
        refine ⟨retries, by rw [shared], fun p => ?_, fun id p => ?_⟩
        · exact congrArg (fun x : Shared => repeats p x.log) shared
        · exact congrArg (fun x : Shared => started id p x.log) shared
      rw [show next g (.stats _) r = g from rfl, update_same hg]
      exact books.same same
  | _ => exact absurd trivial he

/-- In a step that meets the condition a reply is one the protocol reckons with. -/
theorem reply_may (meets : Followed cfg s l)
    (hg : stages ((discipline cfg).statuses s) t = some g)
    (h : Delivered (system cfg profile) s l t e (.reply r w)) : may cfg.retryPolicy g e r := by
  cases e with
  | host e =>
    cases e with
    | sleep delay =>
      cases r with
      | ok _ => trivial
      | error x =>
        obtain ⟨-, rfl⟩ := sleep_error h
        exact meets.uncut t g hg rfl
    | _ => trivial
  | circuit e =>
    cases e with
    | allowRequest p =>
      obtain ⟨now, hl, -, rfl, -⟩ := allowRequest_reply h
      exact meets.permit t g p now hg h.reached hl
    | _ => trivial
  | semaphore e =>
    cases e with
    | acquire p n =>
      cases r with
      | ok _ => trivial
      | error x =>
        obtain ⟨rfl, rfl⟩ := semaphore_error h
        exact ⟨rfl, meets.uncut t g hg rfl⟩
    | _ => trivial
  | provider e =>
    cases e with
    | finishPayment p id =>
      cases r with
      | ok _ => trivial
      | error x =>
        cases x with
        | provider error =>
          obtain ⟨hl | ⟨-, cancelled⟩, -, -⟩ := finishPayment_reply h
          · exact meets.budget t g p id error hg h.reached hl
          · cases cancelled
        | _ => trivial
    | _ => trivial
  | store e =>
    cases e with
    | append events =>
      cases r with
      | ok _ => trivial
      | error x =>
        obtain ⟨stored, hl⟩ := store_raised rfl h
        refine ⟨?_, ?_⟩
        · obtain rfl | rfl := hl <;> exact meets.uncut t g hg rfl
        · rintro error rfl
          obtain rfl | rfl := hl <;> exact meets.plain
    | _ => trivial
  | _ => trivial

end Step

def Inv (w : World) (_ : Option Tid) (st : Statuses) : Prop := Books w (stages st)

theorem stages_some {st : Statuses} {t : Tid} {c : Call} {g : Stage} {b : Bool}
    (ht : st t = some ⟨c, g, b⟩) : stages st t = some g := by
  rw [stages, ht, Option.map_some]

theorem maintains {cfg : Config} {profile : Profile} (distinct : cfg.providers.Nodup) :
    Maintains (system cfg profile) (Followed cfg) (discipline cfg) Inv where
  follows := run_follows distinct
  call := fun {s t c b v} _ books new _ => by
    rw [Inv, stages_update]
    exact Books.spawn books (by rw [stages, new, Option.map_none])
  reply := fun {s l t c g e r w} meets books ht hok h => by
    have hg := stages_some ht
    refine ⟨reply_may meets hg h, fun b v _ => ?_⟩
    rw [Inv, stages_update]
    exact books_reply books hg hok h
  wait := fun {s l t c g e w} _ books ht _ h => by
    apply Books.same books
    have unsent : quiet e := by
      cases e with
      | host e =>
        cases e with
        | uuid4 => exact absurd h uuid4_never_waits
        | _ => trivial
      | stats a => exact absurd h stats_never_waits
      | provider e =>
        cases e with
        | startPayment p id amount currency token =>
          obtain ⟨i, -, -, ha⟩ | ⟨i, -, -, ha⟩ := h.answer
          · cases i <;> cases ha
          · cases i <;> cases ha
        | _ => trivial
      | _ => trivial
    exact quiet_same (wait_touches h) unsent
  outside := fun {s a w} _ books moved => by
    apply Books.same books
    cases a with
    | setProviderConcurrency provider limit =>
      cases moved
      exact ⟨rfl, rfl, fun _ => rfl, fun _ _ => rfl⟩
    | tick elapsed =>
      obtain ⟨_, -, rfl⟩ := Option.map_eq_some_iff.mp moved
      exact ⟨rfl, rfl, fun _ => rfl, fun _ _ => rfl⟩

theorem initial_books (circuit : CircuitBreaker) (concurrency : List (Provider × ℕ)) :
    Books (.initial circuit concurrency) fun _ => none where
  counted := fun p => by
    have none_counted : (World.initial circuit concurrency).process.retriesTotal p = 0 :=
      Process.initial_eq (fun q => q.retriesTotal p) (fun _ _ _ => rfl) circuit concurrency
    exact ⟨∅, by simp [Owes], none_counted⟩
  sent := nofun
  unsent := nofun
  drawn := nofun
  own := nofun
  logged := fun made => absurd rfl made

/-- When every error that can be retried is followed by its retry, the retries that are counted
are the calls that followed an earlier one for the same payment. -/
theorem retries_counted {cfg : Config} {profile : Profile} (distinct : cfg.providers.Nodup)
    {circuit : CircuitBreaker} {concurrency : List (Provider × ℕ)} {s : ServiceState}
    (h : Reaches (system cfg profile) (Followed cfg) (.empty (.initial circuit concurrency)) s)
    (idle : s.Idle) (p : Provider) :
    s.world.process.retriesTotal p = repeats p s.world.log := by
  obtain ⟨kept, books⟩ := (maintains distinct).reaches_empty (initial_books circuit concurrency) h
  obtain ⟨F, hF, total⟩ := books.counted p
  have none : F = ∅ := by
    rw [Finset.eq_empty_iff_forall_notMem]
    intro t ht
    obtain ⟨g, hg, due⟩ := (hF t).mp ht
    obtain ⟨u, hu, rfl⟩ := Option.map_eq_some_iff.mp hg
    obtain ⟨T, task, rfl⟩ := (discipline cfg).statuses_some hu
    obtain ⟨_, free⟩ := kept.ended task (idle t T task)
    cases due.symm.trans free
  rw [total, none, Finset.card_empty, Nat.add_zero]

/-- A check that a step meets the condition, whether or not its task owes a retry. -/
def follows (cfg : Config) (s : ServiceState) (l : ServiceLabel) : Bool :=
  (cuts l).isNone && match l, l.task.bind s.tasks with
    | .resume _ (.outcome (.error (.provider error))), some T =>
      !isRetryable error || ((discipline cfg).phase T).attempts ≠ cfg.retryPolicy.maxAttempts &&
        ((discipline cfg).phase T).attempts ≤ 1024
    | .enter _ (.at now), some T =>
      match T.code.head with
      | some (.circuit (.allowRequest p)) => ((s.world.circuit p).allowRequest now).1
      | _ => true
    | _, _ => true

theorem follows_followed {cfg : Config} {s : ServiceState} {l : ServiceLabel}
    (h : follows cfg s l = true) : Followed cfg s l := by
  obtain ⟨uncut, checked⟩ := (Bool.and_eq_true _ _).mp h
  have none := Option.isNone_iff_eq_none.mp uncut
  constructor
  · rintro t g p id error hg ⟨T, task, head⟩ rfl retryable
    obtain ⟨u, hu, rfl⟩ := Option.map_eq_some_iff.mp hg
    obtain rfl := Option.some.inj (((discipline cfg).statuses_of_task task).symm.trans hu)
    have more : ((discipline cfg).phase T).attempts ≠ cfg.retryPolicy.maxAttempts ∧
        ((discipline cfg).phase T).attempts ≤ 1024 := by
      simpa [Label.task, task, retryable] using checked
    exact more
  · rintro t g p now hg ⟨T, task, head⟩ rfl -
    simpa [Label.task, task, head] using checked
  · intro t g hg cut
    cases none.symm.trans cut
  · cases l with
    | enter t i => cases i <;> trivial
    | resume t i => cases i <;> trivial
    | _ => trivial

/-- A call that fails once is made again. -/
def retriedRun : List ServiceLabel :=
  create 0 0 (card "a") 1 ++ ask 0 0 ++ start 0 ++ raises 0 unavailable ++ recordFailure 0 0 ++
  [.enter 0 .go, .enter 0 (.at 0), .enter 0 (.number 0), .enter 0 .suspend, .resume 0 .go] ++
  ask 0 0 ++ start 0 ++ returns 0 "reference" ++ recordSuccess 0 0 ++ finish 0 0

def steadyCircuit : CircuitBreaker :=
  { fragile with
    failureThreshold := 5
    threshold_pos := by decide }

theorem retries_counted_once : ∃ s ∈ run (system (service ["stripe"] 2) {}) retriedRun
    (.empty (.initial steadyCircuit [])), s.Idle ∧ s.world.process.retriesTotal "stripe" = 1 ∧
    repeats "stripe" s.world.log = 1 := by
  have h : ∃ s ∈ runWhile (system (service ["stripe"] 2) {})
      (fun s l => follows (service ["stripe"] 2) s l = true) retriedRun
      (.empty (.initial steadyCircuit [])), (∀ t ∈ called retriedRun, s.ended t = true) ∧
      s.world.process.retriesTotal "stripe" = 1 := by
    decide +kernel
  obtain ⟨s, moved, ended, counted⟩ := h
  have ran := runWhile_run _ moved
  have idle : s.Idle := run_idle _ ran ended
  have equal := retries_counted (by decide)
    ((runWhile_reaches _ moved).mono fun _ _ => follows_followed) idle "stripe"
  exact ⟨s, ran, idle, counted, equal ▸ counted⟩

/-- The one call that is allowed raises an error that could be retried. -/
theorem unmade_retry_counted : ¬ ∀ ls s, run (system (service ["stripe"] 1) {}) ls
    (.empty (.initial fragile [])) = some s → s.Idle →
      s.world.process.retriesTotal "stripe" = repeats "stripe" s.world.log := by
  intro equal
  have h : ∃ s ∈ run (system (service ["stripe"] 1) {}) (failedRun 0 0 0)
      (.empty (.initial fragile [])), (∀ t ∈ called (failedRun 0 0 0), s.ended t = true) ∧
      s.world.process.retriesTotal "stripe" = 1 ∧ repeats "stripe" s.world.log = 0 := by
    decide +kernel
  obtain ⟨s, moved, ended, counted, made⟩ := h
  have same := equal _ s moved (run_idle _ moved ended)
  rw [counted, made] at same
  cases same

end PySwitch.Retries
