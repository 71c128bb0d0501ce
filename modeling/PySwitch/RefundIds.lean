import PySwitch.Booking
import PySwitch.RefundLedger

namespace PySwitch.RefundIds

open Async Program Service

/-- The last refund of a payment has one of these identifiers. -/
def Stamped (drawn : List Uuid) (p : Payment) : Prop :=
  ∃ rest refund, p.refunds = rest ++ [refund] ∧ refund.paymentId = p.id ∧ refund.id ∈ drawn

def ok (drawn : List Uuid) : Effect → Prop
  | .store (.save p) => Stamped drawn p
  | .store (.saveWithEvents p _) => Stamped drawn p
  | _ => True

/-- A payment that is looked at again is the same one. -/
def may : (e : Effect) → e.Reply → Prop
  | .store (.reread p), q => q.id = p.id
  | _, _ => True

def next (drawn : List Uuid) : (e : Effect) → e.Reply → List Uuid
  | .host .uuid4, id => id :: drawn
  | .store (.save _), _ => []
  | .store (.saveWithEvents _ _), _ => []
  | _, _ => drawn

/-- The identifiers that a refund has drawn and not saved. What a `create` draws has no part in
this. -/
def protocol : Call → Protocol Effect Effect.Reply (List Uuid)
  | .create _ => ⟨fun _ _ => True, fun _ _ _ => True, fun drawn _ _ => drawn⟩
  | _ => ⟨ok, fun _ => may, next⟩

def discipline : Discipline Call Effect Effect.Reply (Except Exn Result) (List Uuid) :=
  ⟨protocol, fun _ => [], fun _ _ _ => True⟩

def refunding : Protocol Effect Effect.Reply (List Uuid) := ⟨ok, fun _ => may, next⟩

theorem neutral_unsaving {e : Effect} (h : Booking.saved e = none) (g : List Uuid) :
    refunding.ok g e := by
  cases e with
  | store e => cases e <;> trivial
  | _ => trivial

theorem saved_cases {e : Effect} {p : Payment} (h : Booking.saved e = some p) :
    e = .store (.save p) ∨ ∃ events, e = .store (.saveWithEvents p events) := by
  unfold Booking.saved at h
  split at h
  · cases h
    exact .inl rfl
  · rename_i q events
    cases h
    exact .inr ⟨events, rfl⟩
  · cases h

section Refund

variable {cfg : Config}

theorem save_wp (payment : Payment) (events : List EventEnvelope) {s : Locals} {g : List Uuid}
    (stamped : Stamped g payment) :
    wp refunding (save cfg payment events) (fun _ _ _ => True) s g := by
  unfold save
  split
  · simp only [perform, wp_await, wp_effect]
    exact ⟨stamped, fun r _ => by cases r <;> trivial⟩
  · simp only [perform, wp_bind, wp_await, wp_effect]
    refine ⟨stamped, fun r _ => ?_⟩
    cases r with
    | error x => trivial
    | ok _ =>
      simp only [orRaise_ok, wp_onlyIf, wp_await, wp_effect]
      split
      · exact ⟨trivial, fun r _ => by cases r <;> trivial⟩
      · trivial

theorem refundLocked_wp (paymentId : Uuid) (amount : Option ℤ) {s : Locals} {g : List Uuid} :
    wp refunding (refundLocked cfg paymentId amount) (fun _ _ _ => True) s g := by
  simp only [refundLocked, Service.get, perform, wp_bind, wp_await, wp_effect]
  refine ⟨trivial, fun found _ => ?_⟩
  cases found with
  | error x => trivial
  | ok found =>
    cases found with
    | none => trivial
    | some payment =>
      simp only [orRaise_ok, wp_ite, wp_raise]
      split
      · trivial
      split
      · trivial
      split
      · trivial
      simp only [wp_bind, wp_effect, wp_await, orRaise_ok]
      refine ⟨trivial, fun _ _ => ⟨trivial, fun result _ => ?_⟩⟩
      cases result with
      | error x => trivial
      | ok result =>
        simp only [orRaise_ok, uuid4, now, perform, paymentEvent, newEvent, wp_bind, wp_effect,
          wp_pure]
        refine ⟨trivial, fun id _ => ⟨trivial, fun createdAt _ => ⟨trivial, fun q same => ?_⟩⟩⟩
        refine ⟨trivial, fun event _ => ⟨trivial, fun _ _ => ?_⟩⟩
        have same : q.id = payment.id := same
        refine wp_mono (save_wp _ _ ⟨q.refunds, _, rfl, same.symm, ?_⟩) ?_
        · exact List.mem_cons_of_mem _ (List.mem_cons_self ..)
        · intro r s' g' _
          cases r <;> trivial

theorem refund_wp (paymentId : Uuid) (amount : Option ℤ) {s : Locals} {g : List Uuid} :
    wp refunding (refund cfg paymentId amount) (fun _ _ _ => True) s g := by
  simp only [refund, perform, wp_bind, wp_await, wp_effect]
  refine ⟨trivial, fun acquired _ => ?_⟩
  cases acquired with
  | error x => trivial
  | ok _ =>
    simp only [orRaise_ok, wp_ensure]
    apply wp_mono (refundLocked_wp paymentId amount)
    intro r s' g' _
    exact ⟨trivial, fun _ _ => trivial⟩

theorem run_follows (c : Call) :
    ((c.run cfg).start {}).Follows (protocol c) (discipline.post c) [] := by
  apply start_follows
  cases c with
  | create data =>
    apply keeps_of_replies (J := fun _ => True)
    · exact fun _ _ _ => ⟨trivial, fun _ _ => trivial⟩
    · trivial
  | refund paymentId amount =>
    simp only [Call.run, wp_bind]
    apply wp_mono (refund_wp paymentId amount)
    intro r s g _
    cases r <;> trivial
  | recover provider =>
    have success : Keeps refunding (fun _ _ => True) (recordSuccess cfg provider) := by
      apply keeps_of_uses (A := fun e => Booking.saved e = none)
      · refine uses_bind (uses_effect rfl) fun moved => uses_onlyIf ?_
        apply uses_mono ?_ (uses_recordCircuitTransition _ _ _ _)
        intro e he
        cases e with
        | store e => cases e <;> first | rfl | cases he
        | _ => rfl
      · exact fun _ g e _ he => ⟨neutral_unsaving he g, fun _ _ => trivial⟩
    exact keeps_bind success (fun _ => keeps_pure _) {} _ trivial

end Refund

/-- A payment is saved for the first time, or with one refund more. -/
inductive Fits (w : World) : Payment → Prop
  | new {p : Payment} (absent : w.store.payments p.id = none) (unrefunded : p.refunds = []) :
    Fits w p
  | refunded {q : Payment} {refund : Refund} (stored : w.store.payments q.id = some q) :
    Fits w (applyRefund q refund)

/-- An identifier of a refund in the store. -/
def Used (w : World) (id : Uuid) : Prop :=
  ∃ paymentId p, w.store.payments paymentId = some p ∧ id ∈ p.refunds.map Refund.id

abbrev Statuses : Type := Tid → Option (Status Call (List Uuid))

structure Inv (w : World) (_ : Option Tid) (st : Statuses) : Prop where
  used : ∀ {id}, Used w id → id < w.shared.nextUuid
  drawn : ∀ {t u id}, st t = some u → id ∈ u.phase → id < w.shared.nextUuid ∧ ¬ Used w id
  apart : ∀ {t t' u u' id}, st t = some u → st t' = some u' → id ∈ u.phase → id ∈ u'.phase → t = t'

section Runs

variable {cfg : Config} {profile : Profile} (memory : profile.storage = .memory)
  (reliable : Ledger.Reliable profile cfg.coordinator)
  {circuit : CircuitBreaker} {concurrency : List (Provider × ℕ)}

/-- The states that runs of the service reach. -/
def Reached (cfg : Config) (profile : Profile) (circuit : CircuitBreaker)
    (concurrency : List (Provider × ℕ)) (s : ServiceState) : Prop :=
  Reaches (system cfg profile) Ledger.Positive (.empty (.initial circuit concurrency)) s

include memory reliable

theorem Reached.ledger {s : ServiceState} (h : Reached cfg profile circuit concurrency s) :
    (Ledger.discipline profile).Kept s ∧
      Ledger.Inv s.world s.running ((Ledger.discipline profile).statuses s) :=
  (Ledger.maintains memory reliable).reaches_empty (Ledger.inv_initial circuit concurrency) h

theorem Reached.fits {s : ServiceState} (h : Reached cfg profile circuit concurrency s) {t : Tid}
    {e : Effect} (at_ : s.At t e) {p : Payment} (saves : Booking.saved e = some p) :
    Fits s.world p := by
  obtain ⟨kept, inv⟩ := h.ledger memory reliable
  obtain ⟨T, task, head⟩ := at_
  obtain ⟨k, code⟩ := Coroutine.perform_of_head head
  have follows := kept t T task
  rw [code] at follows
  have good := inv.good ((Ledger.discipline profile).statuses_of_task task)
  have saveable : ((Ledger.discipline profile).phase T).saveable p := by
    obtain rfl | ⟨events, rfl⟩ := saved_cases saves
    · have hok : Ledger.ok profile _ (.store (.save p)) := follows.1
      exact Ledger.ok_save hok
    · have hok : Ledger.ok profile _ (.store (.saveWithEvents p events)) := follows.1
      exact Ledger.ok_saveWithEvents hok
  cases phase : (Ledger.discipline profile).phase T with
  | draft id amount =>
    rw [phase] at saveable
    obtain ⟨unrefunded, -⟩ := saveable
    obtain ⟨-, absent, -⟩ := good.draft phase
    exact .new (unrefunded.id_eq ▸ absent) unrefunded.refunds_eq
  | applying q amount =>
    rw [phase] at saveable
    obtain ⟨refund, -, rfl⟩ := saveable
    refine .refunded (good.payment ?_)
    show Ledger.Stage.payment ((Ledger.discipline profile).phase T) = some q
    rw [phase]
    rfl
  | _ =>
    rw [phase] at saveable
    exact saveable.elim

end Runs

/-- The stored payments are the same, and no identifier has been drawn. -/
structure Same (w w' : World) : Prop where
  payments : w'.store.payments = w.store.payments
  nextUuid : w'.shared.nextUuid = w.shared.nextUuid

theorem Same.used {w w' : World} (h : Same w w') {id : Uuid} : Used w' id ↔ Used w id := by
  unfold Used
  rw [h.payments]

theorem Same.inv {w w' : World} {v v' : Option Tid} {st : Statuses} (h : Same w w')
    (inv : Inv w v st) : Inv w' v' st where
  used := fun hid => h.nextUuid ▸ inv.used (h.used.mp hid)
  drawn := fun hu hid => by
    rw [h.nextUuid, h.used]
    exact inv.drawn hu hid
  apart := inv.apart

/-- The effects that neither draw identifiers nor save. -/
theorem touches_same {e : Effect} {w w' : World} (h : e.Touches w w') (drawn : e ≠ .host .uuid4)
    (store : ∀ a, e ≠ .store a) : Same w w' :=
  ⟨by rw [h.store store], h.nextUuid drawn⟩

/-- The world has more identifiers than before, and a call holds only such as nobody else does. -/
theorem inv_moves {w w' : World} {v v' : Option Tid} {st : Statuses} {t : Tid} {c : Call}
    {g : List Uuid} {b : Bool} (inv : Inv w v st)
    (later : w.shared.nextUuid ≤ w'.shared.nextUuid)
    (used : ∀ {id}, Used w' id → Used w id ∨ (id < w'.shared.nextUuid ∧
      ∀ u x, u ≠ t → st u = some x → id ∉ x.phase))
    (drawn : ∀ id ∈ g, id < w'.shared.nextUuid ∧ ¬ Used w' id)
    (own : ∀ id ∈ g, ∀ u x, u ≠ t → st u = some x → id ∉ x.phase) :
    Inv w' v' (Function.update st t (some ⟨c, g, b⟩)) where
  used := fun hid => by
    obtain old | new := used hid
    · exact Nat.lt_of_lt_of_le (inv.used old) later
    · exact new.1
  drawn := fun {u x id} hu hid => by
    obtain ⟨-, rfl⟩ | ⟨ne, old⟩ := update_cases hu
    · exact drawn id hid
    · obtain ⟨below, unused⟩ := inv.drawn old hid
      refine ⟨Nat.lt_of_lt_of_le below later, fun now => ?_⟩
      obtain before | new := used now
      · exact unused before
      · exact new.2 u x ne old hid
  apart := fun {u u' x x' id} hu hu' hid hid' => by
    obtain ⟨rfl, rfl⟩ | ⟨ne, old⟩ := update_cases hu
    · obtain ⟨rfl, rfl⟩ | ⟨ne', old'⟩ := update_cases hu'
      · rfl
      · exact absurd hid' (own id hid u' x' ne' old')
    · obtain ⟨rfl, rfl⟩ | ⟨ne', old'⟩ := update_cases hu'
      · exact absurd hid (own id hid' u x ne old)
      · exact inv.apart old old' hid hid'

section Step

variable {cfg : Config} {profile : Profile} {s : ServiceState} {l : ServiceLabel} {t : Tid}
  {c : Call} {g : List Uuid} {w : World} {b : Bool} {v : Option Tid}

variable (inv : Inv s.world s.running (discipline.statuses s))
  (ht : discipline.statuses s t = some ⟨c, g, false⟩)

include inv ht

theorem inv_same (same : Same s.world w) :
    Inv w v (Function.update (discipline.statuses s) t (some ⟨c, g, b⟩)) := by
  apply inv_moves inv (Nat.le_of_eq same.nextUuid.symm)
  · exact fun hid => .inl (same.used.mp hid)
  · intro id hid
    rw [same.nextUuid, same.used]
    exact inv.drawn ht hid
  · exact fun id hid u x ne hu hid' => ne (inv.apart hu ht hid' hid)

theorem inv_uuid4 {id : Uuid}
    (h : Delivered (system cfg profile) s l t (.host .uuid4) (.reply id w)) {g' : List Uuid}
    (draws : g' = g ∨ g' = id :: g) :
    Inv w v (Function.update (discipline.statuses s) t (some ⟨c, g', b⟩)) := by
  obtain ⟨rfl, rfl⟩ := uuid4_reply h
  have fresh : ∀ x ∈ g', x = s.world.shared.nextUuid ∨ x ∈ g := by
    intro x hx
    obtain rfl | rfl := draws
    · exact .inr hx
    · exact List.mem_cons.mp hx
  apply inv_moves inv (Nat.le_succ _)
  · exact fun hid => .inl hid
  · intro x hx
    obtain rfl | old := fresh x hx
    · exact ⟨Nat.lt_succ_self _, fun used => Nat.lt_irrefl _ (inv.used used)⟩
    · obtain ⟨below, unused⟩ := inv.drawn ht old
      exact ⟨Nat.lt_succ_of_lt below, unused⟩
  · intro x hx u status ne hu hid
    obtain rfl | old := fresh x hx
    · exact Nat.lt_irrefl _ (inv.drawn hu hid).1
    · exact ne (inv.apart hu ht hid old)

theorem inv_save (memory : profile.storage = .memory) {a : StoreEffect}
    {r : (Effect.store a).Reply} {p : Payment}
    (saves : (s.world.store.commit a).payments =
      Function.update s.world.store.payments p.id (some p))
    (h : Delivered (system cfg profile) s l t (.store a) (.reply r w)) {g' : List Uuid}
    (known : ∀ id ∈ p.refunds.map Refund.id, Used s.world id ∨ id ∈ g)
    (left : ∀ id ∈ g', id ∈ g ∧ id ∉ p.refunds.map Refund.id) :
    Inv w v (Function.update (discipline.statuses s) t (some ⟨c, g', b⟩)) := by
  obtain ⟨-, rfl⟩ := store_reply memory h
  have used {id : Uuid} (now : Used (Effect.setStore s.world (s.world.store.commit a)) id) :
      Used s.world id ∨ id ∈ p.refunds.map Refund.id := by
    obtain ⟨paymentId, q, stored, hid⟩ := now
    have stored : Function.update s.world.store.payments p.id (some p) paymentId = some q :=
      saves ▸ stored
    obtain ⟨-, rfl⟩ | ⟨-, old⟩ := update_cases stored
    · exact .inr hid
    · exact .inl ⟨paymentId, q, old, hid⟩
  have apart {id : Uuid} (drawn : id ∈ g) (u : Tid) (x : Status Call (List Uuid)) (ne : u ≠ t)
      (hu : discipline.statuses s u = some x) : id ∉ x.phase :=
    fun hid => ne (inv.apart hu ht hid drawn)
  refine inv_moves inv (Nat.le_refl s.world.shared.nextUuid) ?_ ?_ ?_
  · intro id now
    obtain old | new := used now
    · exact .inl old
    · exact (known id new).imp_right fun drawn => ⟨(inv.drawn ht drawn).1, apart drawn⟩
  · intro id hid
    obtain ⟨drawn, unsaved⟩ := left id hid
    refine ⟨(inv.drawn ht drawn).1, fun now => ?_⟩
    obtain old | new := used now
    · exact (inv.drawn ht drawn).2 old
    · exact unsaved new
  · exact fun id hid => apart (left id hid).1

omit inv ht in
theorem calm_same (memory : profile.storage = .memory) {e : Effect} {r : e.Reply}
    (h : Delivered (system cfg profile) s l t e (.reply r w)) (drawn : e ≠ .host .uuid4)
    (saves : Booking.saved e = none) : Same s.world w := by
  cases e with
  | store a =>
    obtain ⟨-, rfl⟩ := store_reply memory h
    cases a <;> first | exact ⟨rfl, rfl⟩ | cases saves
  | _ => exact touches_same (reply_touches h) drawn fun _ => Effect.noConfusion

end Step

section Maintained

variable {cfg : Config} {profile : Profile} (memory : profile.storage = .memory)
  (reliable : Ledger.Reliable profile cfg.coordinator)
  {circuit : CircuitBreaker} {concurrency : List (Provider × ℕ)}
  {s : ServiceState} {l : ServiceLabel} {t : Tid} {g : List Uuid} {e : Effect} {r : e.Reply}
  {w : World} {b : Bool} {v : Option Tid}
  (reached : Reached cfg profile circuit concurrency s)

include memory reliable reached

omit memory reliable in
theorem created_unrefunded {data : PaymentInput} {ended : Bool}
    (ht : discipline.statuses s t = some ⟨.create data, g, ended⟩) (at_ : s.At t e) {p : Payment}
    (saves : Booking.saved e = some p) : p.refunds = [] := by
  obtain ⟨T, task, head⟩ := at_
  obtain ⟨k, code⟩ := Coroutine.perform_of_head head
  have status := discipline.statuses_of_task task
  have call : T.call = .create data := congrArg Status.call (Option.some.inj (status.symm.trans ht))
  have leads : ((T.call.run cfg).start {}).Leads T.trace T.code := reached.leads task
  rw [call, code] at leads
  exact (Booking.saved_shaped leads saves).refunds

/-- The refunds of a payment that is saved are stored already, but for one whose identifier the
call has drawn. -/
theorem saved_known {p : Payment} (at_ : s.At t e) (saves : Booking.saved e = some p)
    (stamped : Stamped g p) : ∀ id ∈ p.refunds.map Refund.id, Used s.world id ∨ id ∈ g := by
  obtain ⟨rest, refund, refunds, -, drawn⟩ := stamped
  intro id hid
  cases reached.fits memory reliable at_ saves with
  | new absent unrefunded =>
    rw [unrefunded] at hid
    cases hid
  | @refunded q last stored =>
    obtain ⟨rfl, rfl⟩ : q.refunds = rest ∧ last = refund := by
      simpa [applyRefund] using List.append_inj' refunds rfl
    rw [refunds, List.map_append, List.mem_append] at hid
    obtain old | new := hid
    · exact .inl ⟨q.id, q, stored, old⟩
    · obtain rfl : id = last.id := by simpa using new
      exact .inr drawn

theorem reply_may (h : Delivered (system cfg profile) s l t e (.reply r w)) : may e r := by
  cases e with
  | store a =>
    cases a with
    | reread p =>
      obtain ⟨-, ledger⟩ := reached.ledger memory reliable
      obtain ⟨rfl, -⟩ := store_reply memory h
      show ((s.world.store.payments p.id).getD p).id = p.id
      cases stored : s.world.store.payments p.id with
      | none => rfl
      | some q => exact ledger.books.identified stored
    | _ => trivial
  | _ => trivial

variable (inv : Inv s.world s.running (discipline.statuses s))

include inv

theorem inv_refunding {c : Call} (ht : discipline.statuses s t = some ⟨c, g, false⟩) (hok : ok g e)
    (h : Delivered (system cfg profile) s l t e (.reply r w)) :
    Inv w v (Function.update (discipline.statuses s) t (some ⟨c, next g e r, b⟩)) := by
  by_cases drawn : e = .host .uuid4
  · subst drawn
    exact inv_uuid4 inv ht h (.inr rfl)
  cases saves : Booking.saved e with
  | none =>
    have stays : next g e r = g := by
      cases e with
      | host e => cases e <;> first | rfl | exact absurd rfl drawn
      | store e => cases e <;> first | rfl | cases saves
      | _ => rfl
    rw [stays]
    exact inv_same inv ht (calm_same memory h drawn saves)
  | some p =>
    obtain rfl | ⟨events, rfl⟩ := saved_cases saves
    · exact inv_save inv ht memory rfl h (saved_known memory reliable reached h.reached rfl hok)
        nofun
    · exact inv_save inv ht memory rfl h (saved_known memory reliable reached h.reached rfl hok)
        nofun

omit reliable in
theorem inv_creating {data : PaymentInput}
    (ht : discipline.statuses s t = some ⟨.create data, g, false⟩)
    (h : Delivered (system cfg profile) s l t e (.reply r w)) :
    Inv w v (Function.update (discipline.statuses s) t (some ⟨.create data, g, b⟩)) := by
  by_cases drawn : e = .host .uuid4
  · subst drawn
    exact inv_uuid4 inv ht h (.inl rfl)
  cases saves : Booking.saved e with
  | none => exact inv_same inv ht (calm_same memory h drawn saves)
  | some p =>
    have unrefunded := created_unrefunded reached ht h.reached saves
    have none (id : Uuid) : id ∉ p.refunds.map Refund.id := by
      rw [unrefunded]
      exact List.not_mem_nil
    obtain rfl | ⟨events, rfl⟩ := saved_cases saves
    · exact inv_save inv ht memory rfl h (fun id hid => absurd hid (none id))
        fun id hid => ⟨hid, none id⟩
    · exact inv_save inv ht memory rfl h (fun id hid => absurd hid (none id))
        fun id hid => ⟨hid, none id⟩

end Maintained

theorem maintains {cfg : Config} {profile : Profile} (memory : profile.storage = .memory)
    (reliable : Ledger.Reliable profile cfg.coordinator) {circuit : CircuitBreaker}
    {concurrency : List (Provider × ℕ)} :
    Maintains (system cfg profile)
      (fun s l => Ledger.Positive s l ∧ Reached cfg profile circuit concurrency s)
      discipline Inv where
  follows := run_follows
  call := by
    intro s t c b v _ inv _ _
    apply inv_moves inv (Nat.le_refl _)
    · exact fun hid => .inl hid
    · nofun
    · nofun
  reply := by
    intro s l t c g e r w meets inv ht hok h
    cases c with
    | create data => exact ⟨trivial, fun b v _ => inv_creating memory meets.2 inv ht h⟩
    | refund paymentId amount =>
      exact ⟨reply_may memory reliable meets.2 h,
        fun b v _ => inv_refunding memory reliable meets.2 inv ht hok h⟩
    | recover provider =>
      exact ⟨reply_may memory reliable meets.2 h,
        fun b v _ => inv_refunding memory reliable meets.2 inv ht hok h⟩
  wait := by
    intro s l t c g e w _ inv _ _ h
    apply Same.inv _ inv
    cases e with
    | host e =>
      cases e with
      | uuid4 => exact absurd h uuid4_never_waits
      | _ => exact touches_same (wait_touches h) nofun fun _ => Effect.noConfusion
    | store a => exact absurd h (store_never_waits memory)
    | _ => exact touches_same (wait_touches h) nofun fun _ => Effect.noConfusion
  outside := by
    intro s a w _ inv h
    have frame := outside_frame h
    exact Same.inv ⟨by rw [frame.store], frame.nextUuid⟩ inv

theorem inv_initial (circuit : CircuitBreaker) (concurrency : List (Provider × ℕ)) :
    Inv (.initial circuit concurrency) none fun _ => none where
  used := by
    rintro id ⟨paymentId, p, stored, -⟩
    cases stored
  drawn := nofun
  apart := nofun

/-- A payment is saved for the first time without refunds, or with one more refund of which the
identifier is new. -/
inductive Legal (m : InMemoryPaymentStore) : Payment → Prop
  | new {p : Payment} (absent : m.payments p.id = none) (unrefunded : p.refunds = []) : Legal m p
  | refunded {q : Payment} {refund : Refund} (stored : m.payments q.id = some q)
      (own : refund.paymentId = q.id) (fresh : refund.id ∉ q.refunds.map Refund.id) :
    Legal m (applyRefund q refund)

theorem Reached.legal {cfg : Config} {profile : Profile} {circuit : CircuitBreaker}
    {concurrency : List (Provider × ℕ)} {s : ServiceState}
    (reached : Reached cfg profile circuit concurrency s) (memory : profile.storage = .memory)
    (reliable : Ledger.Reliable profile cfg.coordinator) {t : Tid} {e : Effect} (at_ : s.At t e)
    {p : Payment} (saves : Booking.saved e = some p) : Legal s.world.store p := by
  have along := Reaches.along reached fun u h => (h : Reached cfg profile circuit concurrency u)
  obtain ⟨kept, inv⟩ :=
    (maintains memory reliable).reaches_empty (inv_initial circuit concurrency) along
  obtain fits := reached.fits memory reliable at_ saves
  obtain ⟨T, task, head⟩ := id at_
  obtain ⟨k, code⟩ := Coroutine.perform_of_head head
  have status := discipline.statuses_of_task task
  have follows := kept t T task
  rw [code] at follows
  cases fits with
  | new absent unrefunded => exact .new absent unrefunded
  | @refunded q refund stored =>
    have stamped : Stamped (discipline.phase T) (applyRefund q refund) := by
      cases call : T.call with
      | create data =>
        have status : discipline.statuses s t =
            some ⟨.create data, discipline.phase T, T.code.isDone⟩ := by
          rw [← call]
          exact status
        have unrefunded := created_unrefunded reached status at_ saves
        simp [applyRefund] at unrefunded
      | _ =>
        rw [call] at follows
        obtain rfl | ⟨events, rfl⟩ := saved_cases saves
        · exact follows.1
        · exact follows.1
    obtain ⟨rest, last, refunds, own, drawn⟩ := stamped
    obtain ⟨rfl, rfl⟩ : q.refunds = rest ∧ refund = last := by
      simpa [applyRefund] using List.append_inj' refunds rfl
    exact .refunded stored own fun used => (inv.drawn status drawn).2 ⟨q.id, q, stored, used⟩

end PySwitch.RefundIds
