import PySwitch.Answers
import PySwitch.CircuitHistory
import PySwitch.Permit

namespace PySwitch.Permit

open Async CircuitHistory

/-- The permit a call holds until the outcome of its attempt is recorded. -/
def Stage.permit : Stage → Option (Provider × CircuitState)
  | .permitted p state => some (p, state)
  | .calling p state => some (p, state)
  | .returned p state => some (p, state)
  | .failed p state => some (p, state)
  | _ => none

/-- Stages in which a call does not suspend. -/
def Stage.pending : Stage → Prop
  | .returned _ _ => True
  | .failed _ _ => True
  | .recovering _ => True
  | _ => False

abbrev Statuses : Type := Tid → Option (Status Call Stage)

structure Inv (w : World) (running : Option Tid) (st : Statuses) : Prop where
  standing : ∀ {t u p state}, st t = some u → u.phase.permit = some (p, state) →
    Standing w t p state
  pending : ∀ {t u}, st t = some u → u.phase.pending → running = some t

theorem next_permit {g : Stage} {e : Effect} {r : e.Reply} (he : ∀ c, e ≠ .circuit c)
    {x : Provider × CircuitState} (h : (next g e r).permit = some x) : g.permit = some x := by
  unfold next at h
  split at h <;> first | exact h | cases h | exact absurd rfl (he _)

theorem ok_permitted {p : Provider} {state : CircuitState} {e : Effect}
    (h : ok (.permitted p state) e) : e = .host .now ∨ (∃ a, e = .stats a) ∨
      (∃ q, e = .semaphore (.current q)) ∨ (∃ n, e = .semaphore (.acquire p n)) ∨
      ∃ paymentId amount currency token,
        e = .provider (.startPayment p paymentId amount currency token) := by
  unfold ok at h
  split at h <;> simp_all

theorem ok_failed {p : Provider} {state : CircuitState} {e : Effect}
    (h : ok (.failed p state) e) : (∃ q n, e = .semaphore (.release q n)) ∨ e = .host .now ∨
      (∃ a, e = .stats a) ∨ e = .circuit (.recordFailure p) := by
  unfold ok at h
  split at h <;> simp_all

theorem ok_calling {p : Provider} {state : CircuitState} {e : Effect}
    (h : ok (.calling p state) e) : ∃ paymentId, e = .provider (.finishPayment p paymentId) := by
  unfold ok at h
  split at h <;> simp_all

theorem ok_returned {p : Provider} {state : CircuitState} {e : Effect}
    (h : ok (.returned p state) e) :
    (∃ q n, e = .semaphore (.release q n)) ∨ e = .circuit (.recordSuccess p) := by
  unfold ok at h
  split at h <;> simp_all

theorem standing_touches {w w' : World} {e : Effect} (he : ∀ c, e ≠ .circuit c)
    (h : e.Touches w w') {t : Tid} {p : Provider} {state : CircuitState}
    (hs : Standing w t p state) : Standing w' t p state := by
  cases e with
  | circuit c => exact absurd rfl (he c)
  | provider e =>
    obtain rfl | ⟨x, hx, rfl⟩ := h
    · exact hs
    · exact hs.note hx.ofCircuit
  | host e => obtain rfl | ⟨-, rfl⟩ := h <;> exact hs.congr rfl rfl
  | stats e => obtain ⟨_, _, rfl⟩ := h; exact hs.congr rfl rfl
  | semaphore e => obtain ⟨_, rfl⟩ := h; exact hs.congr rfl rfl
  | refundLock e => obtain ⟨_, rfl⟩ := h; exact hs.congr rfl rfl
  | coordinator e => obtain ⟨_, rfl⟩ := h; exact hs.congr rfl rfl
  | redis e => obtain ⟨_, rfl⟩ := h; exact hs.congr rfl rfl
  | store e => obtain ⟨_, rfl⟩ := h; exact hs.congr rfl rfl

theorem not_circuit_or (e : Effect) : (∃ c, e = .circuit c) ∨ ∀ c, e ≠ .circuit c := by
  cases e with
  | circuit c => exact .inl ⟨c, rfl⟩
  | _ => exact .inr fun _ => Effect.noConfusion

theorem outside_standing {w w' : World} {a : Outside} (h : a.apply w = some w') {t : Tid}
    {p : Provider} {state : CircuitState} (hs : Standing w t p state) : Standing w' t p state := by
  cases a with
  | setProviderConcurrency provider limit =>
    cases h
    exact hs.congr rfl rfl
  | tick elapsed =>
    obtain ⟨r, -, rfl⟩ := Option.map_eq_some_iff.mp h
    exact hs.congr rfl rfl

section Step

variable {cfg : Config} {profile : Profile} {s : ServiceState} {l : ServiceLabel} {t u : Tid}
  {c : Call} {g : Stage} {e : Effect} {r : e.Reply} {w : World} {p : Provider}
  {state : CircuitState}

theorem standing_other (h : Delivered (system cfg profile) s l t e (.reply r w)) (hu : t ≠ u)
    (hs : Standing s.world u p state) : Standing w u p state := by
  obtain ⟨c, rfl⟩ | he := not_circuit_or e
  · cases c with
    | allowRequest q =>
      obtain ⟨now, -, -, -, rfl⟩ := allowRequest_reply h
      have moved := hs.moveCircuit (u := t) (moved_allowRequest (s.world.circuit q) now)
      split
      · exact moved.note_permitted hu
      · exact moved
    | recordSuccess q =>
      obtain ⟨-, -, rfl⟩ := recordSuccess_reply h
      exact hs.moveCircuit .closes
    | recordFailure q =>
      obtain ⟨now, -, -, -, rfl⟩ := recordFailure_reply h
      exact hs.moveCircuit (moved_recordFailure _ now)
  · exact standing_touches he (reply_touches h) hs

/-- A stage with a permit that follows a circuit effect has only just begun. -/
theorem circuit_permit {a : CircuitEffect} {r : (Effect.circuit a).Reply}
    (h : Delivered (system cfg profile) s l t (.circuit a) (.reply r w))
    (hok : ok g (.circuit a)) (hp : (next g (.circuit a) r).permit = some (p, state)) :
    a = .allowRequest p ∧ g = .idle ∧ next g (.circuit a) r = .permitted p state ∧
      overtaken t p w.log = false := by
  cases a with
  | allowRequest q =>
    obtain ⟨now, -, -, rfl, rfl⟩ := allowRequest_reply h
    cases g with
    | idle =>
      simp only [next] at hp
      split at hp
      · rename_i granted
        cases hp
        rw [if_pos granted]
        exact ⟨rfl, rfl, if_pos granted, overtaken_self _⟩
      · cases hp
    | _ => exact hok.elim
  | recordSuccess q =>
    cases g with
    | returned => cases hp
    | recovering => cases hp
    | _ => exact hok.elim
  | recordFailure q =>
    cases g with
    | failed => cases hp
    | _ => exact hok.elim

theorem standing_self (h : Delivered (system cfg profile) s l t e (.reply r w)) (hok : ok g e)
    (hg : ∀ {p state}, g.permit = some (p, state) → Standing s.world t p state)
    (hp : (next g e r).permit = some (p, state)) : Standing w t p state := by
  obtain ⟨c, rfl⟩ | he := not_circuit_or e
  · obtain ⟨rfl, rfl, -, -⟩ := circuit_permit h hok hp
    obtain ⟨now, -, -, rfl, rfl⟩ := allowRequest_reply h
    simp only [next] at hp
    split at hp
    · rename_i granted
      cases hp
      rw [if_pos granted]
      exact standing_granted t granted
    · cases hp
  · exact standing_touches he (reply_touches h) (hg (next_permit he hp))

theorem reply_may (h : Delivered (system cfg profile) s l t e (.reply r w)) : may e r := by
  cases e with
  | circuit c =>
    cases c with
    | allowRequest q =>
      obtain ⟨now, -, -, rfl, -⟩ := allowRequest_reply h
      intro moved
      cases hg : ((s.world.circuit q).allowRequest now).1 with
      | false => exact absurd (by rw [(CircuitBreaker.allowRequest_refused hg).1]) moved
      | true =>
        obtain ⟨-, he⟩ | ⟨-, -, he⟩ | ⟨hs, -, he⟩ := CircuitBreaker.allowRequest_granted hg
        · exact absurd (by rw [he]) moved
        · exact ⟨rfl, by rw [he]⟩
        · exact absurd (by rw [he]) moved
    | _ => trivial
  | semaphore c =>
    cases c with
    | acquire q n =>
      cases r with
      | ok _ => trivial
      | error x => exact (semaphore_error h).1
    | _ => trivial
  | _ => trivial

/-- Nobody else is between the end of a call and its recording. -/
theorem not_pending {a : Answer e.Reply World} {st : Statuses}
    (h : Delivered (system cfg profile) s l t e a) (inv : Inv s.world s.running st) (hu : u ≠ t)
    {x : Status Call Stage} (hx : st u = some x) : ¬ x.phase.pending :=
  fun hp => hu (h.running (inv.pending hx hp))

theorem goes_pending {b : Bool} {v : Option Tid} (hg : Goes discipline t c g b v)
    (hp : g.pending) : v = some t := by
  cases hg with
  | on => rfl
  | ended post =>
    obtain rfl : g = .idle := post
    exact hp.elim

theorem inv_reply {b : Bool} {v : Option Tid}
    (inv : Inv s.world s.running (discipline.statuses s))
    (ht : discipline.statuses s t = some ⟨c, g, false⟩) (hok : ok g e)
    (h : Delivered (system cfg profile) s l t e (.reply r w))
    (hg : Goes discipline t c (next g e r) b v) :
    Inv w v (Function.update (discipline.statuses s) t (some ⟨c, next g e r, b⟩)) where
  standing := fun hu hp => by
    obtain ⟨rfl, rfl⟩ | ⟨hne, hu⟩ := update_cases hu
    · exact standing_self h hok (fun hq => inv.standing ht hq) hp
    · exact standing_other h (Ne.symm hne) (inv.standing hu hp)
  pending := fun hu hp => by
    obtain ⟨rfl, rfl⟩ | ⟨hne, hu⟩ := update_cases hu
    · exact goes_pending hg hp
    · exact absurd hp (not_pending h inv hne hu)

theorem pending_never_waits (hg : g.pending) (hok : ok g e) :
    ¬ Delivered (system cfg profile) s l t e (.wait w) := by
  unfold ok at hok
  split at hok <;> first
    | exact circuit_never_waits
    | exact stats_never_waits
    | exact now_never_waits
    | exact release_never_waits
    | exact hg.elim
    | exact hok.elim

/-- Nobody at all is there when a task suspends. -/
theorem wait_not_pending (h : Delivered (system cfg profile) s l t e (.wait w))
    (inv : Inv s.world s.running (discipline.statuses s))
    (ht : discipline.statuses s t = some ⟨c, g, false⟩) (hok : ok g e) {x : Status Call Stage}
    (hx : discipline.statuses s u = some x) : ¬ x.phase.pending := by
  intro hp
  by_cases hut : u = t
  · subst u
    obtain rfl := Option.some.inj (ht.symm.trans hx)
    exact pending_never_waits hp hok h
  · exact not_pending h inv hut hx hp

end Step

/-- Permits stand to the circuits as they should in every state of every run. -/
theorem maintains (cfg : Config) (profile : Profile) :
    Maintains (system cfg profile) (fun _ _ => True) discipline Inv where
  follows := run_follows cfg
  call := fun {s t c b v} _ inv new hg => {
    standing := fun hu hp => by
      obtain ⟨rfl, rfl⟩ | ⟨-, hu⟩ := update_cases hu
      · cases c <;> cases hp
      · exact inv.standing hu hp
    pending := fun hu hp => by
      obtain ⟨rfl, rfl⟩ | ⟨-, hu⟩ := update_cases hu
      · exact goes_pending hg hp
      · cases inv.pending hu hp }
  reply := fun _ inv ht hok h => ⟨reply_may h, fun _ _ hg => inv_reply inv ht hok h hg⟩
  wait := fun {s l t c g e w} _ inv ht hok h => {
    standing := fun hu hp => by
      obtain ⟨c, rfl⟩ | he := not_circuit_or e
      · exact absurd h circuit_never_waits
      · exact standing_touches he (wait_touches h) (inv.standing hu hp)
    pending := fun hu hp => absurd hp (wait_not_pending h inv ht hok hu) }
  outside := fun _ inv moved => {
    standing := fun hu hp => outside_standing moved (inv.standing hu hp)
    pending := fun hu hp => inv.pending hu hp }

end PySwitch.Permit
