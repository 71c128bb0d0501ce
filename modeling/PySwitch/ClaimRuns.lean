import PySwitch.ClaimSteps

namespace PySwitch.Claim

open Async Program Service MemoryIdempotencyCoordinator

/-- The calls made are all of `create`. -/
def Creates (_ : ServiceState) : ServiceLabel → Prop
  | .call _ (.create _) => True
  | .call _ _ => False
  | _ => True

theorem free_follows {α : Type} {Q : α → Stage → Prop} (hQ : ∀ a g, Q a g)
    (c : Coroutine Effect Effect.Reply α) (g : Stage) : c.Follows free Q g := by
  induction c generalizing g with
  | done a => exact hQ a g
  | perform e k ih => exact ⟨trivial, fun r _ => ih r g⟩

theorem run_follows {cfg : Config} (direct : cfg.coordinator = .direct) (c : Call) :
    ((c.run cfg).start {}).Follows ((discipline cfg).protocol c) ((discipline cfg).post c)
      ((discipline cfg).first c) := by
  cases c with
  | create data =>
    apply start_follows
    show wp (protocol (requestOf cfg data)) (Call.run cfg (.create data)) _ _ _
    simp only [Call.run, wp_bind]
    apply wp_mono (create_wp direct data)
    intro r s g h
    cases r with
    | ok p => exact h
    | error x => exact h
  | refund paymentId amount => exact free_follows (fun _ _ => trivial) _ _
  | recover provider => exact free_follows (fun _ _ => trivial) _ _

section Step

variable {cfg : Config} {profile : Profile} {s : ServiceState} {l : ServiceLabel} {t : Tid}
  {data : PaymentInput} {g : Stage} {e : Effect} {w : World}
  (inv : Inv cfg s.world s.running ((discipline cfg).statuses s))
  (ht : (discipline cfg).statuses s t = some ⟨.create data, g, false⟩)
  (storage : profile.storage = .memory) (memory : profile.coordinator = .memory)

include inv ht storage memory

theorem reply_may {r : e.Reply} (hok : ok (requestOf cfg data) g e)
    (h : Delivered (system cfg profile) s l t e (.reply r w)) : may e r := by
  have good := good_self inv ht
  cases e with
  | coordinator e =>
    cases e with
    | acquire key fingerprint =>
      obtain ⟨c, decides, -⟩ := acquire_direct_reply memory h
      cases decides with
      | lost found pending event => exact absurd event (inv.books.awaited found pending)
      | cancelled => rfl
      | _ => trivial
    | complete key fingerprint paymentId =>
      obtain ⟨rfl, -⟩ := complete_direct memory h
      cases g with
      | stored p =>
        obtain ⟨rfl, rfl, rfl⟩ := hok
        have found : s.world.process.idempotency.records (requestOf cfg data).key =
            some ⟨(requestOf cfg data).fingerprint, none, false⟩ := good.held trivial
        rw [(complete_of_claimed found p.id).1]
        trivial
      | _ => exact hok.elim
    | abort key fingerprint =>
      obtain ⟨rfl, -⟩ := abort_direct memory h
      trivial
  | store e =>
    obtain ⟨rfl, -⟩ := store_reply storage h
    cases e with
    | getByIdempotency key =>
      cases g with
      | owner =>
        obtain rfl : key = (requestOf cfg data).key := hok
        simp only [may, InMemoryPaymentStore.answer, InMemoryPaymentStore.getByIdempotency,
          good.unkeyed trivial fun _ => nofun, Option.bind_none]
      | _ => exact hok.elim
    | _ => trivial
  | _ => trivial

omit inv in
theorem pending_never_waits (hg : g.pending) (hok : ok (requestOf cfg data) g e) :
    ¬ Delivered (system cfg profile) s l t e (.wait w) := by
  intro h
  cases e with
  | host e =>
    cases e with
    | now => exact now_never_waits h
    | uuid4 => exact uuid4_never_waits h
    | _ => cases g <;> first | exact hok.elim | exact hg.elim
  | circuit e => exact circuit_never_waits h
  | stats e => exact stats_never_waits h
  | semaphore e =>
    cases e with
    | release => exact release_never_waits h
    | _ => cases g <;> first | exact hok.elim | exact hg.elim
  | coordinator e =>
    obtain ⟨key, fingerprint, rfl⟩ := coordinator_wait memory h
    cases g <;> first | exact hok.elim | exact hg.elim
  | store e => exact store_never_waits storage h
  | _ => cases g <;> first | exact hok.elim | exact hg.elim

omit inv ht in
theorem wait_same (h : Delivered (system cfg profile) s l t e (.wait w)) : Same s.world w := by
  cases e with
  | coordinator e =>
    obtain ⟨key, fingerprint, rfl⟩ := coordinator_wait memory h
    obtain ⟨c, unmoved, rfl⟩ := acquire_direct_wait memory h
    exact ⟨unmoved, rfl, rfl, Nat.le_refl _⟩
  | store e => exact absurd h (store_never_waits storage)
  | host e => exact quiet_same (e := .host e) trivial (wait_touches h)
  | circuit e => exact absurd h circuit_never_waits
  | stats e => exact absurd h stats_never_waits
  | semaphore e => exact quiet_same (e := .semaphore e) trivial (wait_touches h)
  | refundLock e => exact quiet_same (e := .refundLock e) trivial (wait_touches h)
  | provider e => exact quiet_same (e := .provider e) trivial (wait_touches h)
  | redis e => exact quiet_same (e := .redis e) trivial (wait_touches h)

theorem inv_wait (hok : ok (requestOf cfg data) g e)
    (h : Delivered (system cfg profile) s l t e (.wait w)) :
    Inv cfg w none ((discipline cfg).statuses s) := by
  have same := wait_same storage memory h
  exact {
    books := same.books inv.books
    creates := inv.creates
    good := fun hu hq => same.good (inv.good hu hq)
    unique := inv.unique
    held := fun hr hc => inv.held (same.records _ ▸ hr) hc
    drafts := inv.drafts
    pending := fun {u x} hu hp => by
      by_cases hut : u = t
      · subst u
        obtain rfl := Option.some.inj (ht.symm.trans hu)
        exact absurd h (pending_never_waits ht storage memory hp hok)
      · exact absurd hp (not_pending h inv hut hu) }

end Step

theorem inv_call {cfg : Config} {w : World} {st : Statuses} {t : Tid} {data : PaymentInput}
    {b : Bool} {v : Option Tid} (inv : Inv cfg w none st) (new : st t = none)
    (hg : Goes (discipline cfg) t (.create data) .fresh b v) :
    Inv cfg w v (Function.update st t (some ⟨.create data, .fresh, b⟩)) where
  books := inv.books
  creates := fun hu => by
    obtain ⟨-, rfl⟩ | ⟨-, hu⟩ := update_cases hu
    · exact ⟨data, rfl⟩
    · exact inv.creates hu
  good := fun hu hq => by
    obtain ⟨-, rfl⟩ | ⟨-, hu⟩ := update_cases hu
    · exact good_of_bare False.elim (fun _ => nofun) fun _ => nofun
    · exact inv.good hu hq
  unique := fun hu hu' hq hq' hk hw hw' => by
    obtain ⟨-, rfl⟩ | ⟨-, old⟩ := update_cases hu
    · exact hw.elim
    · obtain ⟨-, rfl⟩ | ⟨-, old'⟩ := update_cases hu'
      · exact hw'.elim
      · exact inv.unique old old' hq hq' hk hw hw'
  held := fun hr hc => by
    obtain ⟨u, x, q, hu, hq, hk, hx⟩ := inv.held hr hc
    have hut : u ≠ t := by
      rintro rfl
      cases new.symm.trans hu
    exact ⟨u, x, q, by rwa [Function.update_of_ne hut], hq, hk, hx⟩
  drafts := fun hu hu' hd hd' => by
    obtain ⟨-, rfl⟩ | ⟨-, old⟩ := update_cases hu
    · cases hd
    · obtain ⟨-, rfl⟩ | ⟨-, old'⟩ := update_cases hu'
      · cases hd'
      · exact inv.drafts old old' hd hd'
  pending := fun hu hp => by
    obtain ⟨-, rfl⟩ | ⟨-, hu⟩ := update_cases hu
    · exact hp.elim
    · cases inv.pending hu hp

theorem outside_same {a : Outside} {w w' : World} (h : a.apply w = some w') : Same w w' := by
  cases a with
  | setProviderConcurrency provider limit =>
    cases h
    exact ⟨⟨rfl, rfl⟩, rfl, rfl, Nat.le_refl _⟩
  | tick elapsed =>
    obtain ⟨r, -, rfl⟩ := Option.map_eq_some_iff.mp h
    exact ⟨⟨rfl, rfl⟩, rfl, rfl, Nat.le_refl _⟩

section Maintains

variable {cfg : Config} {profile : Profile} (direct : cfg.coordinator = .direct)
  (memory : profile.coordinator = .memory) (storage : profile.storage = .memory)

include direct memory storage

theorem maintains : Maintains (system cfg profile) Creates (discipline cfg) (Inv cfg) where
  follows := run_follows direct
  call := fun {s t c b v} meets inv new hg => by
    cases c with
    | create data => exact inv_call inv new hg
    | refund paymentId amount => exact meets.elim
    | recover provider => exact meets.elim
  reply := fun {s l t c g e r w} _ inv ht hok h => by
    obtain ⟨data, rfl⟩ := inv.creates ht
    exact ⟨reply_may inv ht storage memory hok h,
      fun _ _ hg => inv_reply inv ht storage memory hok h hg⟩
  wait := fun {s l t c g e w} _ inv ht hok h => by
    obtain ⟨data, rfl⟩ := inv.creates ht
    exact inv_wait inv ht storage memory hok h
  outside := fun {s a w} _ inv h => by
    have same := outside_same h
    exact {
      books := same.books inv.books
      creates := inv.creates
      good := fun hu hq => same.good (inv.good hu hq)
      unique := inv.unique
      held := fun hr hc => inv.held (same.records _ ▸ hr) hc
      drafts := inv.drafts
      pending := inv.pending }

end Maintains

theorem inv_initial (cfg : Config) (circuit : CircuitBreaker)
    (concurrency : List (Provider × ℕ)) :
    Inv cfg (.initial circuit concurrency) none fun _ => none := by
  have records : (Process.initial circuit concurrency).idempotency.records = fun _ => none :=
    Process.initial_eq (fun p => p.idempotency.records) (fun _ _ _ => rfl) circuit concurrency
  have none_found {key : RecordKey} {r : IdempotencyRecord}
      (h : Claim.records (.initial circuit concurrency) key = some r) : False := by
    cases (congrFun records key).symm.trans h
  exact {
    books := {
      vacant := fun _ => rfl
      completed := fun hr => (none_found hr).elim
      awaited := fun hr => (none_found hr).elim
      keyed := nofun }
    creates := nofun
    good := nofun
    unique := nofun
    held := fun hr => (none_found hr).elim
    drafts := nofun
    pending := nofun }

end PySwitch.Claim
