import PySwitch.Answers
import PySwitch.VisitCalls
import PySwitch.VisitProtocol

namespace PySwitch.Visits

open Async Service

/-- The payment calls that were made at a provider for one payment. -/
def started (id : Uuid) (provider : Provider) : List Happening → ℕ
  | [] => 0
  | .paymentStarted _ p paymentId :: log =>
    (if p = provider ∧ paymentId = id then 1 else 0) + started id provider log
  | _ :: log => started id provider log

abbrev Statuses : Type := Tid → Option (Status Call Stage)

/-- The attempts of a payment are the calls made for it. -/
def Known (w : World) (id : Uuid) (p : Payment) : Prop :=
  ∃ visits, (visits.map Visit.provider).Nodup ∧ History visits p ∧
    ∀ provider, started id provider w.log = callsTo provider visits

/-- What holds of the stage of one task. -/
structure Good (policy : RetryPolicy) (w : World) (g : Stage) : Prop where
  draft : ∀ {id}, g.draft = some id → id < w.shared.nextUuid ∧ w.store.payments id = none ∧
    ∀ provider, started id provider w.log = g.callsTo provider
  plan : g.plan.Nodup
  idle : policy.maxAttempts = 0 → ∀ provider, g.callsTo provider = 0
  target : ∀ {q}, g.target = some q → ∃ p, w.store.payments q.id = some p ∧
    p.attempts = q.attempts

/-- What holds of the world whatever the tasks are doing. -/
structure Books (w : World) : Prop where
  stored : ∀ {id p}, w.store.payments id = some p → p.id = id ∧ id < w.shared.nextUuid
  known : ∀ {id p}, w.store.payments id = some p → Known w id p

structure Inv (policy : RetryPolicy) (w : World) (_ : Option Tid) (st : Statuses) : Prop where
  books : Books w
  good : ∀ {t u}, st t = some u → Good policy w u.phase
  drafts : ∀ {t t' u u' id}, st t = some u → st t' = some u' → u.phase.draft = some id →
    u'.phase.draft = some id → t = t'
  called : ∀ {id provider}, started id provider w.log ≠ 0 → w.store.payments id ≠ none ∨
    ∃ t u, st t = some u ∧ u.phase.draft = some id

theorem Good.frame {policy : RetryPolicy} {w w' : World} {g : Stage} (h : Good policy w g)
    (nextUuid : w.shared.nextUuid ≤ w'.shared.nextUuid)
    (draft : ∀ id, g.draft = some id → w'.store.payments id = w.store.payments id ∧
      ∀ provider, started id provider w'.log = started id provider w.log)
    (target : ∀ q p, g.target = some q → w.store.payments q.id = some p →
      ∃ p', w'.store.payments q.id = some p' ∧ p'.attempts = p.attempts) :
    Good policy w' g where
  draft := fun hd => by
    obtain ⟨fresh, new, calls⟩ := h.draft hd
    obtain ⟨payments, started⟩ := draft _ hd
    exact ⟨Nat.lt_of_lt_of_le fresh nextUuid, payments.trans new,
      fun p => (started p).trans (calls p)⟩
  plan := h.plan
  idle := h.idle
  target := fun hq => by
    obtain ⟨p, hp, attempts⟩ := h.target hq
    obtain ⟨p', hp', same⟩ := target _ p hq hp
    exact ⟨p', hp', same.trans attempts⟩

/-- The payments and the calls are the same. -/
structure Same (w w' : World) : Prop where
  payments : w'.store.payments = w.store.payments
  nextUuid : w'.shared.nextUuid = w.shared.nextUuid
  started : ∀ id provider, started id provider w'.log = started id provider w.log

namespace Same

variable {w w' : World}

theorem refl (w : World) : Same w w := ⟨rfl, rfl, fun _ _ => rfl⟩

theorem good (h : Same w w') {policy : RetryPolicy} {g : Stage} (hg : Good policy w g) :
    Good policy w' g := by
  apply hg.frame
  · rw [h.nextUuid]
  · exact fun id _ => ⟨by rw [h.payments], h.started id⟩
  · intro q p _ hp
    rw [h.payments]
    exact ⟨p, hp, rfl⟩

theorem books (h : Same w w') (hw : Books w) : Books w' := by
  constructor
  · intro id p hp
    rw [h.nextUuid]
    exact hw.stored (h.payments ▸ hp)
  · intro id p hp
    obtain ⟨visits, distinct, history, calls⟩ := hw.known (h.payments ▸ hp)
    exact ⟨visits, distinct, history, fun q => (h.started id q).trans (calls q)⟩

end Same

/-- The effects that neither the payments nor the payment calls know of. -/
def quiet : Effect → Prop
  | .host .uuid4 => False
  | .provider (.startPayment _ _ _ _ _) => False
  | .store _ => False
  | _ => True

theorem started_circuit {new : List Happening} (h : ∀ x ∈ new, Happening.ofCircuit x = true)
    (id : Uuid) (provider : Provider) (log : List Happening) :
    started id provider (new ++ log) = started id provider log := by
  induction new with
  | nil => rfl
  | cons x new ih =>
    obtain ⟨hx, hn⟩ := List.forall_mem_cons.mp h
    rw [List.cons_append, ← ih hn]
    cases x <;> first | rfl | cases hx

theorem quiet_same {e : Effect} {w w' : World} (h : e.Touches w w') (he : quiet e) :
    Same w w' := by
  refine ⟨congrArg _ (h.store ?_), h.nextUuid ?_, fun id provider => ?_⟩
  · rintro a rfl
    exact he
  · rintro rfl
    exact he
  · cases e with
    | circuit e =>
      obtain ⟨_, new, hn, rfl⟩ := h
      exact started_circuit hn id provider _
    | provider e =>
      obtain rfl | ⟨x, hx, rfl⟩ := h
      · rfl
      · cases hx with
        | started => exact he.elim
        | _ => rfl
    | host e => obtain rfl | ⟨-, rfl⟩ := h <;> rfl
    | stats e => obtain ⟨_, _, rfl⟩ := h; rfl
    | _ => obtain ⟨_, rfl⟩ := h; rfl

/-- The task whose wait a label ends with a cancellation, or with an exception that is no
`ProviderError`. -/
def interrupted : ServiceLabel → Option Tid
  | .resume t .cancel => some t
  | .resume _ (.outcome (.error (.provider _))) => none
  | .resume t (.outcome (.error _)) => some t
  | _ => none

/-- A provider call whose error can be retried is the last one allowed, or its retry has a delay
that fits a `float`. -/
def Fits (cfg : Config) (s : ServiceState) (l : ServiceLabel) : Prop :=
  ∀ t p id error, s.At t (.provider (.finishPayment p id)) →
    l = .resume t (.outcome (.error (.provider error))) → isRetryable error = true →
      started id p s.world.log = cfg.retryPolicy.maxAttempts ∨ started id p s.world.log ≤ 1024

def failure : ServiceLabel → Option ProviderError
  | .resume _ (.outcome (.error (.provider error))) => some error
  | _ => none

theorem fits_of_unfailed {cfg : Config} {s : ServiceState} {l : ServiceLabel}
    (h : failure l = none) : Fits cfg s l := by
  rintro t p id error - rfl
  cases h

/-- No task is interrupted that has made calls for a payment it has not saved. -/
structure Undisturbed (profile : Profile) (cfg : Config) (s : ServiceState) (l : ServiceLabel) :
    Prop where
  whole : ∀ t u, (discipline profile cfg).statuses s t = some u →
    (∃ provider, u.phase.callsTo provider ≠ 0) → interrupted l ≠ some t
  fits : Fits cfg s l

section Step

variable {cfg : Config} {profile : Profile} {s : ServiceState} {l : ServiceLabel} {t : Tid}
  {c : Call} {g g' : Stage} {e : Effect} {r : e.Reply} {w : World} {b : Bool} {v : Option Tid}
  (inv : Inv cfg.retryPolicy s.world s.running ((discipline profile cfg).statuses s))
  (ht : (discipline profile cfg).statuses s t = some ⟨c, g, false⟩)

include inv ht

/-- What has to be shown of a step that takes a task on to another stage. -/
theorem inv_moves (books : Books w) (self : Good cfg.retryPolicy w g')
    (others : ∀ u x, u ≠ t → (discipline profile cfg).statuses s u = some x →
      Good cfg.retryPolicy w x.phase)
    (draft : ∀ id, g'.draft = some id → g.draft = some id ∨ s.world.shared.nextUuid ≤ id)
    (kept : ∀ id, g.draft = some id → g'.draft = some id ∨ w.store.payments id ≠ none)
    (stored : ∀ id, s.world.store.payments id ≠ none → w.store.payments id ≠ none)
    (called : ∀ id provider, started id provider w.log ≠ 0 →
      started id provider s.world.log ≠ 0 ∨ g'.draft = some id) :
    Inv cfg.retryPolicy w v
      (Function.update ((discipline profile cfg).statuses s) t (some ⟨c, g', b⟩)) := by
  have separate (u : Tid) (x : Status Call Stage) (hne : u ≠ t)
      (hu : (discipline profile cfg).statuses s u = some x) (id : Uuid)
      (hd : g'.draft = some id) : x.phase.draft ≠ some id := by
    intro hx
    obtain old | new := draft id hd
    · exact hne (inv.drafts hu ht hx old)
    · exact absurd ((inv.good hu).draft hx).1 (not_lt.mpr new)
  constructor
  · exact books
  · intro u x hu
    obtain ⟨-, rfl⟩ | ⟨hne, hu⟩ := update_cases hu
    · exact self
    · exact others u x hne hu
  · intro u u' x x' id hu hu' hd hd'
    obtain ⟨rfl, rfl⟩ | ⟨hne, old⟩ := update_cases hu <;>
      obtain ⟨rfl, rfl⟩ | ⟨hne', old'⟩ := update_cases hu'
    · rfl
    · exact absurd hd' (separate u' x' hne' old' id hd)
    · exact absurd hd (separate u x hne old id hd')
    · exact inv.drafts old old' hd hd'
  · intro id provider made
    have here (hd : g'.draft = some id) : w.store.payments id ≠ none ∨
        ∃ u x, Function.update ((discipline profile cfg).statuses s) t (some ⟨c, g', b⟩) u =
          some x ∧ x.phase.draft = some id :=
      .inr ⟨t, _, Function.update_self .., hd⟩
    obtain old | hd := called id provider made
    · obtain known | ⟨u, x, hu, hd⟩ := inv.called old
      · exact .inl (stored id known)
      · by_cases hne : u = t
        · subst hne
          obtain rfl := Option.some.inj (ht.symm.trans hu)
          exact (kept id hd).elim here .inl
        · exact .inr ⟨u, x, by rwa [Function.update_of_ne hne], hd⟩
    · exact here hd

theorem inv_same (same : Same s.world w) (self : Good cfg.retryPolicy s.world g')
    (draft : ∀ id, g'.draft = some id ↔ g.draft = some id) :
    Inv cfg.retryPolicy w v
      (Function.update ((discipline profile cfg).statuses s) t (some ⟨c, g', b⟩)) := by
  apply inv_moves inv ht (same.books inv.books) (same.good self)
  · exact fun u x _ hu => same.good (inv.good hu)
  · exact fun id hd => .inl ((draft id).mp hd)
  · exact fun id hd => .inl ((draft id).mpr hd)
  · intro id hp
    rwa [same.payments]
  · intro id provider made
    rw [same.started] at made
    exact .inl made

/-- A step within a draft that makes no call. -/
theorem inv_continues (same : Same s.world w) {id : Uuid} (hd : g.draft = some id)
    (further : g'.Continues id g.callsTo g.plan) :
    Inv cfg.retryPolicy w v
      (Function.update ((discipline profile cfg).statuses s) t (some ⟨c, g', b⟩)) := by
  have good := inv.good ht
  apply inv_same inv ht same
  · constructor
    · intro id' hd'
      obtain rfl := Option.some.inj (hd'.symm.trans further.draft)
      obtain ⟨fresh, new, calls⟩ := good.draft hd
      exact ⟨fresh, new, fun p => (calls p).trans (further.calls p).symm⟩
    · exact good.plan.sublist further.plan
    · exact fun none p => (further.calls p).trans (good.idle none p)
    · intro q hq
      rw [further.target] at hq
      cases hq
  · intro id'
    rw [hd, further.draft]

theorem inv_uuid4 {id : Uuid}
    (h : Delivered (system cfg profile) s l t (.host .uuid4) (.reply id w)) :
    Inv cfg.retryPolicy w v
      (Function.update ((discipline profile cfg).statuses s) t (some ⟨c, g.draw id, b⟩)) := by
  obtain ⟨rfl, rfl⟩ := uuid4_reply h
  have frame {x : Stage} (hx : Good cfg.retryPolicy s.world x) : Good cfg.retryPolicy
      { s.world with shared.nextUuid := s.world.shared.nextUuid + 1 } x :=
    hx.frame (Nat.le_succ _) (fun _ _ => ⟨rfl, fun _ => rfl⟩) fun _ p _ hp => ⟨p, hp, rfl⟩
  have books : Books { s.world with shared.nextUuid := s.world.shared.nextUuid + 1 } :=
    ⟨fun hp => ⟨(inv.books.stored hp).1, Nat.lt_succ_of_lt (inv.books.stored hp).2⟩,
      fun hp => inv.books.known hp⟩
  have unstored : s.world.store.payments s.world.shared.nextUuid = none := by
    cases hn : s.world.store.payments s.world.shared.nextUuid with
    | none => rfl
    | some p => exact absurd (inv.books.stored hn).2 (Nat.lt_irrefl _)
  have uncalled (provider : Provider) :
      started s.world.shared.nextUuid provider s.world.log = 0 := by
    by_contra made
    obtain known | ⟨u, x, hu, hd⟩ := inv.called made
    · exact known unstored
    · exact absurd ((inv.good hu).draft hd).1 (Nat.lt_irrefl _)
  by_cases ordered : g = .ordered
  · subst ordered
    apply inv_moves inv ht books ?_ (fun u x _ hu => frame (inv.good hu))
    · exact fun id hd => .inr (Option.some.inj hd).le
    · exact nofun
    · exact fun _ hp => hp
    · exact fun _ _ made => .inl made
    · constructor
      · intro id hd
        obtain rfl := Option.some.inj hd
        exact ⟨Nat.lt_succ_self _, unstored, uncalled⟩
      · exact List.nodup_nil
      · exact fun _ _ => rfl
      · exact nofun
  · rw [draw_placed ordered]
    apply inv_moves inv ht books (frame (inv.good ht)) (fun u x _ hu => frame (inv.good hu))
    · exact fun id hd => .inl hd
    · exact fun id hd => .inl hd
    · exact fun _ hp => hp
    · exact fun _ _ made => .inl made

theorem inv_start {p : Provider} {id : Uuid} {amount : ℤ} {currency token : String} {r : Unit}
    (hok : ok profile cfg g (.provider (.startPayment p id amount currency token)))
    (h : Delivered (system cfg profile) s l t
      (.provider (.startPayment p id amount currency token)) (.reply r w)) :
    Inv cfg.retryPolicy w v
      (Function.update ((discipline profile cfg).statuses s) t (some ⟨c, g.start, b⟩)) := by
  obtain ⟨d, rfl, rfl, rfl, positive⟩ := hok
  obtain rfl := startPayment_reply h
  have good := inv.good ht
  have same {id : Uuid} (hid : id ≠ d.id) (provider : Provider) :
      started id provider (s.world.note (.paymentStarted t d.provider d.id)).log =
        started id provider s.world.log := by
    simp [World.note, World.log, started, Ne.symm hid]
  have frame {x : Stage} (hx : Good cfg.retryPolicy s.world x) (hne : x.draft ≠ some d.id) :
      Good cfg.retryPolicy (s.world.note (.paymentStarted t d.provider d.id)) x := by
    refine hx.frame (Nat.le_refl _) ?_ ?_
    · intro id hd
      have hid : id ≠ d.id := by
        rintro rfl
        exact hne hd
      exact ⟨rfl, same hid⟩
    · exact fun q p _ hp => ⟨p, hp, rfl⟩
  obtain ⟨fresh, new, calls⟩ := good.draft rfl
  apply inv_moves inv ht
  · constructor
    · exact inv.books.stored
    · intro id p hp
      have hid : id ≠ d.id := by
        rintro rfl
        cases new.symm.trans hp
      obtain ⟨visits, distinct, history, made⟩ := inv.books.known hp
      exact ⟨visits, distinct, history, fun q => (same hid q).trans (made q)⟩
  · constructor
    · intro id hd
      obtain rfl := Option.some.inj hd
      refine ⟨fresh, new, fun provider => ?_⟩
      have before : started d.id provider s.world.log = d.callsTo provider := calls provider
      have after : started d.id provider
          (s.world.note (.paymentStarted t d.provider d.id)).log =
          (if d.provider = provider then 1 else 0) + started d.id provider s.world.log := by
        simp [World.note, World.log, started]
      rw [after, before, Nat.add_comm]
      rfl
    · exact good.plan
    · exact fun none => absurd none (Nat.ne_of_gt positive)
    · exact nofun
  · exact fun u x hne hu => frame (inv.good hu) fun hd => hne (inv.drafts hu ht hd rfl)
  · exact fun id hd => .inl hd
  · exact fun id hd => .inl hd
  · exact fun _ hp => hp
  · intro id provider made
    by_cases hid : id = d.id
    · subst hid
      exact .inr rfl
    · rw [same hid] at made
      exact .inl made

/-- The history of the payment that is saved is that of the calls made for it. -/
theorem saves_known {p : Payment} (saves : g.saves p) :
    p.id < s.world.shared.nextUuid ∧ Known s.world p.id p := by
  have good := inv.good ht
  cases g with
  | returned d result =>
    obtain ⟨hid, history, -⟩ := saves
    have hd : (Stage.returned d result).draft = some p.id := congrArg some hid.symm
    obtain ⟨fresh, -, calls⟩ := good.draft hd
    refine ⟨fresh, d.close .returned, ?_, history, fun provider => ?_⟩
    · refine List.Nodup.sublist ?_ good.plan
      simp [Draft.close, Stage.plan, Draft.plan]
    · rw [calls, over_callsTo]
      simp [Stage.callsTo]
  | failed id visits =>
    obtain ⟨rfl, history, -⟩ := saves
    obtain ⟨fresh, -, calls⟩ := good.draft rfl
    exact ⟨fresh, visits, good.plan, history, calls⟩
  | applying q =>
    obtain ⟨hid, attempts⟩ := saves
    obtain ⟨p', hp', same⟩ := good.target rfl
    obtain ⟨visits, distinct, history, calls⟩ := inv.books.known hp'
    rw [hid]
    refine ⟨(inv.books.stored hp').2, visits, distinct, ?_, calls⟩
    rw [History, attempts, ← same]
    exact history
  | _ => exact saves.elim

omit inv ht in
theorem saves_cases {p : Payment} (saves : g.saves p) : g.draft = some p.id ∨
    ∃ q, g = .applying q ∧ p.id = q.id ∧ p.attempts = q.attempts := by
  cases g with
  | returned d result => exact .inl (congrArg some saves.1.symm)
  | failed id visits => exact .inl (congrArg some saves.1.symm)
  | applying q => exact .inr ⟨q, rfl, saves⟩
  | _ => exact saves.elim

omit inv ht in
theorem stored_good {policy : RetryPolicy} {p : Payment} (saves : g.saves p) :
    g.store.draft = none ∧ Good policy w g.store := by
  cases g with
  | returned d result => exact ⟨rfl, nofun, List.nodup_nil, fun _ _ => rfl, nofun⟩
  | failed id visits => exact ⟨rfl, nofun, List.nodup_nil, fun _ _ => rfl, nofun⟩
  | applying q => exact ⟨rfl, nofun, List.nodup_nil, fun _ _ => rfl, nofun⟩
  | _ => exact saves.elim

theorem inv_save {p : Payment} {m : InMemoryPaymentStore} (saves : g.saves p)
    (payments : m.payments = Function.update s.world.store.payments p.id (some p)) :
    Inv cfg.retryPolicy (Effect.setStore s.world m) v
      (Function.update ((discipline profile cfg).statuses s) t (some ⟨c, g.store, b⟩)) := by
  have good := inv.good ht
  have cases' := saves_cases saves
  obtain ⟨fresh, known⟩ := saves_known inv ht saves
  obtain ⟨rest, stored⟩ : g.store.draft = none ∧
      Good cfg.retryPolicy (Effect.setStore s.world m) g.store := stored_good saves
  have other {id : Uuid} (hid : id ≠ p.id) : m.payments id = s.world.store.payments id := by
    rw [payments, Function.update_of_ne hid]
  have self : m.payments p.id = some p := by rw [payments, Function.update_self]
  have overwrites (p' : Payment) (hp : s.world.store.payments p.id = some p') :
      p.attempts = p'.attempts := by
    obtain hd | ⟨q, rfl, hid, attempts⟩ := cases'
    · cases (good.draft hd).2.1.symm.trans hp
    · obtain ⟨p'', hq, same⟩ := good.target rfl
      rw [hid, hq] at hp
      rw [attempts, ← same, Option.some.inj hp]
  apply inv_moves inv ht ?_ stored
  · intro u x hne hu
    have hx := inv.good hu
    refine hx.frame (Nat.le_refl _) ?_ ?_
    · intro id hd
      refine ⟨other ?_, fun _ => rfl⟩
      rintro rfl
      obtain own | ⟨q, rfl, hid, -⟩ := cases'
      · exact hne (inv.drafts hu ht hd own)
      · obtain ⟨p', hp, -⟩ := good.target rfl
        rw [← hid, (hx.draft hd).2.1] at hp
        cases hp
    · intro q p' _ hp
      by_cases hid : q.id = p.id
      · exact ⟨p, hid ▸ self, overwrites p' (hid ▸ hp)⟩
      · exact ⟨p', (other hid).trans hp, rfl⟩
  · intro id hd
    rw [rest] at hd
    cases hd
  · intro id hd
    obtain own | ⟨q, rfl, -⟩ := cases'
    · obtain rfl := Option.some.inj (hd.symm.trans own)
      exact .inr fun none => nomatch self.symm.trans none
    · cases hd
  · intro id hp
    by_cases hid : id = p.id
    · subst hid
      exact fun none => nomatch self.symm.trans none
    · exact fun none => hp ((other hid).symm.trans none)
  · exact fun id provider made => .inl made
  · constructor
    · intro id p' hp
      by_cases hid : id = p.id
      · subst hid
        obtain rfl := Option.some.inj (self.symm.trans hp)
        exact ⟨rfl, fresh⟩
      · exact inv.books.stored ((other hid).symm.trans hp)
    · intro id p' hp
      by_cases hid : id = p.id
      · subst hid
        obtain rfl := Option.some.inj (self.symm.trans hp)
        exact known
      · exact inv.books.known ((other hid).symm.trans hp)

theorem inv_stays (same : Same s.world w) : Inv cfg.retryPolicy w v
    (Function.update ((discipline profile cfg).statuses s) t (some ⟨c, g, b⟩)) :=
  inv_same inv ht same (inv.good ht) fun _ => Iff.rfl

theorem inv_quiet (h : Delivered (system cfg profile) s l t e (.reply r w)) (he : quiet e) :
    Inv cfg.retryPolicy w v
      (Function.update ((discipline profile cfg).statuses s) t (some ⟨c, g, b⟩)) :=
  inv_stays inv ht (quiet_same (reply_touches h) he)

theorem inv_permit {p : Provider} {answer : Bool × CircuitState × CircuitState}
    (hok : ok profile cfg g (.circuit (.allowRequest p)))
    (h : Delivered (system cfg profile) s l t (.circuit (.allowRequest p)) (.reply answer w)) :
    Inv cfg.retryPolicy w v (Function.update ((discipline profile cfg).statuses s) t
      (some ⟨c, g.permit answer.1, b⟩)) := by
  obtain ⟨d, rfl, rfl⟩ := hok
  obtain ⟨allowed, previous, current⟩ := answer
  apply inv_continues inv ht (quiet_same (reply_touches h) trivial) rfl
  cases allowed with
  | true => exact ⟨rfl, fun _ => rfl, .refl _, rfl⟩
  | false => exact leave_continues d (by decide : Ending.refused ≠ .returned) "CIRCUIT_OPEN"

theorem inv_choose {healthy : List Provider} {answer : Except Exn Provider}
    (distinct : cfg.providers.Nodup) (hok : ok profile cfg g (.provider (.choose healthy)))
    (h : Delivered (system cfg profile) s l t (.provider (.choose healthy)) (.reply answer w)) :
    Inv cfg.retryPolicy w v (Function.update ((discipline profile cfg).statuses s) t
      (some ⟨c, next cfg g (.provider (.choose healthy)) answer, b⟩)) := by
  obtain ⟨⟨id, rfl⟩, sublist⟩ := hok
  have same := quiet_same (reply_touches h) trivial
  cases answer with
  | error x => exact inv_stays inv ht same
  | ok provider =>
    have plan : (provider :: healthy.filter fun p => p ≠ provider).Nodup := by
      refine List.nodup_cons.mpr ⟨by simp, ?_⟩
      exact (distinct.sublist sublist).filter _
    have calls (p : Provider) : (visit id [] (provider :: healthy.filter fun p =>
        p ≠ provider)).callsTo p = 0 := by
      simp [visit, Stage.callsTo, Draft.callsTo]
    have good := inv.good ht
    apply inv_same inv ht same
    · constructor
      · intro id' hd
        obtain rfl := Option.some.inj hd
        obtain ⟨fresh, new, none⟩ := good.draft rfl
        exact ⟨fresh, new, fun p => (none p).trans (calls p).symm⟩
      · exact plan
      · exact fun _ => calls
      · intro q aimed
        cases aimed
    · exact fun _ => Iff.rfl

/-- A task that has made no calls can be abandoned. -/
theorem inv_abandon (meets : Undisturbed profile cfg s l) (same : Same s.world w)
    (draft : g.abandon.draft = g.draft) (broken : interrupted l = some t) :
    Inv cfg.retryPolicy w v
      (Function.update ((discipline profile cfg).statuses s) t (some ⟨c, g.abandon, b⟩)) := by
  have none (p : Provider) : g.callsTo p = 0 := by
    by_contra made
    exact meets.whole t _ ht ⟨p, made⟩ broken
  cases hd : g.draft with
  | none =>
    have stays : g.abandon = g := by cases g <;> first | rfl | cases hd
    rw [stays]
    exact inv_stays inv ht same
  | some id =>
    apply inv_continues inv ht same hd
    refine ⟨draft.trans hd, fun p => (?_ : _ = 0).trans (none p).symm, ?_, ?_⟩
    · cases g <;> first | rfl | exact none p
    · cases g <;> first | exact .refl _ | exact List.nil_sublist _
    · cases g <;> first | rfl | cases hd

theorem inv_finish {p : Provider} {id : Uuid} {answer : Except Exn ProviderPaymentResult}
    (meets : Undisturbed profile cfg s l) (hok : ok profile cfg g (.provider (.finishPayment p id)))
    (h : Delivered (system cfg profile) s l t (.provider (.finishPayment p id)) (.reply answer w)) :
    Inv cfg.retryPolicy w v (Function.update ((discipline profile cfg).statuses s) t
      (some ⟨c, g.answer cfg.retryPolicy answer, b⟩)) := by
  obtain ⟨d, rfl, rfl, rfl⟩ := hok
  obtain ⟨how, -, -⟩ := finishPayment_reply h
  apply inv_continues inv ht (quiet_same (reply_touches h) trivial) rfl
  apply answer_continues
  rintro x rfl
  have made : ∃ provider, (Stage.calling d).callsTo provider ≠ 0 :=
    ⟨d.provider, by simp [Stage.callsTo]⟩
  have whole : interrupted l ≠ some t := meets.whole t _ ht made
  obtain rfl | ⟨rfl, -⟩ := how
  · cases x with
    | provider error =>
      refine ⟨error, rfl, fun retryable => ?_⟩
      have good := inv.good ht
      have calls : started d.id d.provider s.world.log = d.errors.length + 1 := by
        rw [(good.draft rfl).2.2, Stage.callsTo, if_pos rfl, d.callsTo_provider good.plan]
      have fits := meets.fits t d.provider d.id error h.reached rfl retryable
      omega
    | _ => exact absurd rfl whole
  · exact absurd rfl whole

theorem inv_get (memory : profile.storage = .memory) {id : Uuid}
    {answer : Except Exn (Option Payment)}
    (h : Delivered (system cfg profile) s l t (.store (.get id)) (.reply answer w)) :
    Inv cfg.retryPolicy w v (Function.update ((discipline profile cfg).statuses s) t
      (some ⟨c, next cfg g (.store (.get id)) answer, b⟩)) := by
  obtain ⟨rfl, rfl⟩ := store_reply memory h
  have same : Same s.world (Effect.setStore s.world s.world.store) := .refl _
  have reply : s.world.store.answer (.get id) = .ok (s.world.store.payments id) := rfl
  rw [reply]
  cases found : s.world.store.payments id with
  | none => exact inv_stays inv ht same
  | some p =>
    have good := inv.good ht
    cases g with
    | outside =>
      apply inv_same inv ht same
      · refine ⟨nofun, List.nodup_nil, fun _ _ => rfl, fun {q} hq => ?_⟩
        obtain rfl := Option.some.inj hq
        rw [(inv.books.stored found).1]
        exact ⟨_, found, rfl⟩
      · exact fun _ => Iff.rfl
    | _ => exact inv_stays inv ht same

theorem inv_reread (memory : profile.storage = .memory) {p q : Payment}
    (hok : ok profile cfg g (.store (.reread p)))
    (h : Delivered (system cfg profile) s l t (.store (.reread p)) (.reply q w)) :
    Inv cfg.retryPolicy w v (Function.update ((discipline profile cfg).statuses s) t
      (some ⟨c, .applying q, b⟩)) := by
  obtain rfl : g = .found p := hok
  obtain ⟨rfl, rfl⟩ := store_reply memory h
  obtain ⟨p', hp, attempts⟩ := (inv.good ht).target rfl
  have reply : s.world.store.answer (.reread p) = p' := by
    show (s.world.store.payments p.id).getD p = p'
    rw [hp, Option.getD_some]
  rw [reply]
  apply inv_same inv ht (Same.refl _)
  · refine ⟨nofun, List.nodup_nil, fun _ _ => rfl, fun {q} hq => ?_⟩
    obtain rfl := Option.some.inj hq
    rw [(inv.books.stored hp).1]
    exact ⟨_, hp, rfl⟩
  · exact fun _ => Iff.rfl

theorem inv_reply (memory : profile.storage = .memory) (distinct : cfg.providers.Nodup)
    (meets : Undisturbed profile cfg s l) (hok : ok profile cfg g e)
    (h : Delivered (system cfg profile) s l t e (.reply r w)) :
    Inv cfg.retryPolicy w v (Function.update ((discipline profile cfg).statuses s) t
      (some ⟨c, next cfg g e r, b⟩)) := by
  cases e with
  | host e =>
    cases e with
    | uuid4 => exact inv_uuid4 inv ht h
    | sleep delay =>
      have same := quiet_same (reply_touches h) trivial
      obtain ⟨d, rfl, -⟩ := hok
      cases r with
      | ok => exact inv_stays inv ht same
      | error x =>
        obtain ⟨rfl, rfl⟩ := sleep_error h
        exact inv_abandon inv ht meets same rfl rfl
    | _ => exact inv_quiet inv ht h trivial
  | circuit e =>
    cases e with
    | allowRequest p => exact inv_permit inv ht hok h
    | _ => exact inv_quiet inv ht h trivial
  | semaphore e =>
    cases e with
    | acquire p n =>
      have same := quiet_same (reply_touches h) trivial
      obtain ⟨d, rfl⟩ := hok
      cases r with
      | ok => exact inv_stays inv ht same
      | error x =>
        obtain ⟨rfl, rfl⟩ := semaphore_error h
        exact inv_abandon inv ht meets same rfl rfl
    | _ => exact inv_quiet inv ht h trivial
  | provider e =>
    cases e with
    | choose healthy => exact inv_choose inv ht distinct hok h
    | startPayment p id amount currency token => exact inv_start inv ht hok h
    | finishPayment p id => exact inv_finish inv ht meets hok h
    | _ => exact inv_quiet inv ht h trivial
  | store e =>
    cases e with
    | get id => exact inv_get inv ht memory h
    | reread p => exact inv_reread inv ht memory hok h
    | save p =>
      obtain ⟨rfl, rfl⟩ := store_reply memory h
      exact inv_save inv ht hok rfl
    | saveWithEvents p events =>
      obtain ⟨rfl, rfl⟩ := store_reply memory h
      exact inv_save inv ht hok rfl
    | _ =>
      obtain ⟨rfl, rfl⟩ := store_reply memory h
      exact inv_stays inv ht ⟨rfl, rfl, fun _ _ => rfl⟩
  | _ => exact inv_quiet inv ht h trivial

omit inv ht in
theorem reply_may (memory : profile.storage = .memory) (hok : ok profile cfg g e)
    (h : Delivered (system cfg profile) s l t e (.reply r w)) : may e r := by
  cases e with
  | host e =>
    cases e with
    | sleep delay =>
      cases r with
      | ok => trivial
      | error x => exact (sleep_error h).1
    | _ => trivial
  | semaphore e =>
    cases e with
    | acquire p n =>
      cases r with
      | ok => trivial
      | error x => exact (semaphore_error h).1
    | _ => trivial
  | store e =>
    obtain ⟨rfl, rfl⟩ := store_reply memory h
    cases e <;> trivial
  | coordinator e =>
    cases e with
    | complete key fingerprint paymentId =>
      obtain rfl | ⟨message, rfl⟩ := complete_direct_reply hok h
      · trivial
      · exact nofun
    | _ => trivial
  | _ => trivial

omit ht in
theorem inv_wait (memory : profile.storage = .memory)
    (h : Delivered (system cfg profile) s l t e (.wait w)) :
    Inv cfg.retryPolicy w none ((discipline profile cfg).statuses s) := by
  have same : Same s.world w := by
    cases e with
    | host e =>
      cases e with
      | uuid4 => exact absurd h uuid4_never_waits
      | _ => exact quiet_same (wait_touches h) trivial
    | provider e =>
      obtain rfl := provider_wait h
      exact .refl _
    | store e => exact absurd h (store_never_waits memory)
    | _ => exact quiet_same (wait_touches h) trivial
  refine ⟨same.books inv.books, fun hu => same.good (inv.good hu), inv.drafts, fun made => ?_⟩
  rw [same.started] at made
  rw [same.payments]
  exact inv.called made

end Step

theorem first_rest (c : Call) (policy : RetryPolicy) (w : World) :
    (first c).draft = none ∧ Good policy w (first c) := by
  cases c with
  | create data => exact ⟨rfl, nofun, List.nodup_nil, fun _ _ => rfl, nofun⟩
  | _ => exact ⟨rfl, nofun, List.nodup_nil, fun _ _ => rfl, nofun⟩

theorem inv_call {policy : RetryPolicy} {w : World} {st : Statuses} {t : Tid} {c : Call} {b : Bool}
    {v : Option Tid} (inv : Inv policy w none st) (new : st t = none) :
    Inv policy w v (Function.update st t (some ⟨c, first c, b⟩)) := by
  obtain ⟨rest, good⟩ := first_rest c policy w
  have undrafted {id : Uuid} (hd : (first c).draft = some id) : False := by
    rw [rest] at hd
    cases hd
  constructor
  · exact inv.books
  · intro u x hu
    obtain ⟨-, rfl⟩ | ⟨-, hu⟩ := update_cases hu
    · exact good
    · exact inv.good hu
  · intro u u' x x' id hu hu' hd hd'
    obtain ⟨-, rfl⟩ | ⟨-, hu⟩ := update_cases hu
    · exact (undrafted hd).elim
    · obtain ⟨-, rfl⟩ | ⟨-, hu'⟩ := update_cases hu'
      · exact (undrafted hd').elim
      · exact inv.drafts hu hu' hd hd'
  · intro id provider made
    obtain known | ⟨u, x, hu, hd⟩ := inv.called made
    · exact .inl known
    · have hne : u ≠ t := by
        rintro rfl
        cases new.symm.trans hu
      exact .inr ⟨u, x, by rwa [Function.update_of_ne hne], hd⟩

theorem inv_outside {policy : RetryPolicy} {a : Outside} {w w' : World} {st : Statuses}
    (inv : Inv policy w none st) (h : a.apply w = some w') : Inv policy w' none st := by
  have frame := outside_frame h
  have same : Same w w' :=
    ⟨congrArg _ frame.store, frame.nextUuid, fun id provider => by rw [frame.log]⟩
  refine ⟨same.books inv.books, fun hu => same.good (inv.good hu), inv.drafts, fun made => ?_⟩
  rw [same.started] at made
  rw [same.payments]
  exact inv.called made

theorem inv_initial (policy : RetryPolicy) (circuit : CircuitBreaker)
    (concurrency : List (Provider × ℕ)) :
    Inv policy (.initial circuit concurrency) none fun _ => none where
  books := ⟨nofun, nofun⟩
  good := nofun
  drafts := nofun
  called := fun made => absurd rfl made

section Runs

variable {cfg : Config} {profile : Profile} (memory : profile.storage = .memory)
  (reliable : Ledger.Reliable profile cfg.coordinator)

include memory reliable

theorem follows_protocol : Maintains (system cfg profile) (fun _ _ => True)
    (discipline profile cfg) fun _ _ _ => True where
  follows := run_follows reliable
  call := fun _ _ _ _ => trivial
  reply := fun _ _ _ hok h => ⟨reply_may memory hok h, fun _ _ _ => trivial⟩
  wait := fun _ _ _ _ _ => trivial
  outside := fun _ _ _ => trivial

theorem maintains (distinct : cfg.providers.Nodup) :
    Maintains (system cfg profile) (Undisturbed profile cfg) (discipline profile cfg)
      (Inv cfg.retryPolicy) where
  follows := run_follows reliable
  call := fun _ inv new _ => inv_call inv new
  reply := fun meets inv ht hok h =>
    ⟨reply_may memory hok h, fun _ _ _ => inv_reply inv ht memory distinct meets hok h⟩
  wait := fun _ inv _ _ h => inv_wait inv memory h
  outside := fun _ inv h => inv_outside inv h

end Runs

end PySwitch.Visits
