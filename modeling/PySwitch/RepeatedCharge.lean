import PySwitch.Answers
import PySwitch.ChargeProtocol

namespace PySwitch.Charges

open Async Program Scenario

def asks (key : RecordKey) : Call → Bool
  | .create data => data.key = key
  | _ => false

/-- The call of a provider that has returned a result, by the task that made it. -/
def charges : Happening → Option Tid
  | .paymentEnded t _ _ (.ok _) => some t
  | _ => none

def starts : Happening → Option Tid
  | .paymentStarted t _ _ => some t
  | _ => none

/-- The task that has called a provider, or has got a result from one. -/
def calls : Happening → Option Tid
  | .paymentStarted t _ _ => some t
  | .paymentEnded t _ _ (.ok _) => some t
  | _ => none

theorem calls_of_charges {x : Happening} {t : Tid} (h : charges x = some t) :
    calls x = some t := by
  unfold charges at h
  split at h
  · exact h
  · cases h

theorem calls_of_starts {x : Happening} {t : Tid} (h : starts x = some t) :
    calls x = some t := by
  unfold starts at h
  split at h
  · exact h
  · cases h

def free : Protocol Effect Effect.Reply Stage :=
  ⟨fun _ _ => True, fun _ _ _ => True, fun g _ _ => g⟩

def discipline (key : RecordKey) :
    Discipline Call Effect Effect.Reply (Except Exn Result) Stage where
  protocol c := if asks key c then protocol key else free
  first _ := .fresh
  post c _ g := asks key c = true → g ≠ .charged

theorem run_follows (cfg : Config) (key : RecordKey) (c : Call) :
    ((c.run cfg).start {}).Follows ((discipline key).protocol c) ((discipline key).post c)
      ((discipline key).first c) := by
  apply start_follows
  by_cases asked : asks key c = true
  · cases c with
    | create data =>
      obtain rfl : data.key = key := by simpa [asks] using asked
      simp only [discipline, asked, if_true, Call.run, wp_bind]
      apply wp_mono (create_wp data)
      intro r s g left
      cases r <;> exact fun _ => left
    | _ => cases asked
  · simp only [discipline, asked]
    apply wp_mono (keeps_of_replies (P := free) (J := fun _ => True) ?_ _ _ _ trivial)
    · exact fun _ _ _ _ => nofun
    · exact fun _ _ _ => ⟨trivial, fun _ _ => trivial⟩

abbrev Statuses : Type := Tid → Option (Status Call Stage)

abbrev Stages : Type := Tid → Option (Stage × Bool)

/-- The calls for a key, with how far they have come and whether they have ended. -/
def stages (key : RecordKey) (st : Statuses) : Stages := fun t =>
  (st t).bind fun u => if asks key u.call then some (u.phase, u.ended) else none

def Has (key : RecordKey) (w : World) : Prop := w.store.getByIdempotency key ≠ none

/-- What holds of the calls for a key that come one after another. -/
structure Books (key : RecordKey) (w : World) (f : Stages) : Prop where
  kept : ∀ {t b}, f t = some (.saved, b) → Has key w
  paid : ∀ {x t g b}, x ∈ w.log → charges x = some t → f t = some (g, b) → Has key w ∨ g = .charged
  settled : ∀ {t}, f t ≠ some (.charged, true)
  single : ∀ {t u g g'}, f t = some (g, false) → f u = some (g', false) → t = u
  alone : ∀ {x t u g g' b}, x ∈ w.log → charges x = some t → f t = some (g, b) →
    f u = some (g', false) → g' ≠ .fresh → t = u
  once : w.log.Pairwise fun later earlier => ∀ t u, charges earlier = some t →
    calls later = some u → (f t).isSome → (f u).isSome → u = t

section Books

variable {key : RecordKey} {f : Stages} {t : Tid} {g g' : Stage} {b : Bool} {w w' : World}

theorem stages_update {st : Statuses} {c : Call} (asked : asks key c = true) :
    stages key (Function.update st t (some ⟨c, g, b⟩)) =
      Function.update (stages key st) t (some (g, b)) := by
  funext u
  by_cases hu : u = t
  · subst hu
    simp [stages, asked]
  · simp [stages, hu]

theorem stages_other {st : Statuses} {c : Call} (unasked : asks key c = false)
    (before : ∀ u, st t = some u → asks key u.call = false) :
    stages key (Function.update st t (some ⟨c, g, b⟩)) = stages key st := by
  funext u
  by_cases hu : u = t
  · subst hu
    cases h : st u with
    | none => simp [stages, unasked, h]
    | some x => simp [stages, unasked, h, before x h]
  · simp [stages, hu]

theorem isSome_update {u : Tid} (hf : (f t).isSome) {x : Stage × Bool}
    (h : (Function.update f t (some x) u).isSome) : (f u).isSome := by
  by_cases hu : u = t
  · subst hu
    exact hf
  · rwa [Function.update_of_ne hu] at h

/-- A call goes on to its next stage, and nothing is called for or returned. -/
theorem Books.move (h : Books key w f) (hf : f t = some (g, false))
    (saved : g' = .saved → Has key w') (charged : g = .charged → Has key w' ∨ g' = .charged)
    (ended : b = true → g' ≠ .charged)
    (begun : g = .fresh → g' ≠ .fresh →
      ∀ x ∈ w.log, ∀ u v, charges x = some u → f u ≠ some v)
    (store : Has key w → Has key w') (log : w'.log = w.log) :
    Books key w' (Function.update f t (some (g', b))) where
  kept := fun hu => by
    obtain ⟨rfl, same⟩ | ⟨-, hu⟩ := update_cases hu
    · exact saved (congrArg Prod.fst same)
    · exact store (h.kept hu)
  paid := fun hx hc hu => by
    rw [log] at hx
    obtain ⟨rfl, same⟩ | ⟨-, hu⟩ := update_cases hu
    · obtain ⟨rfl, rfl⟩ := Prod.mk.inj same
      obtain has | rfl := h.paid hx hc hf
      · exact .inl (store has)
      · exact charged rfl
    · exact (h.paid hx hc hu).imp_left store
  settled := fun hu => by
    obtain ⟨rfl, same⟩ | ⟨-, hu⟩ := update_cases hu
    · obtain ⟨rfl, rfl⟩ := Prod.mk.inj same
      exact ended rfl rfl
    · exact h.settled hu
  single := fun hu hv => by
    obtain ⟨rfl, -⟩ | ⟨-, first⟩ := update_cases hu
    · obtain ⟨rfl, -⟩ | ⟨-, second⟩ := update_cases hv
      · rfl
      · exact h.single hf second
    · obtain ⟨rfl, -⟩ | ⟨-, second⟩ := update_cases hv
      · exact h.single first hf
      · exact h.single first second
  alone := by
    intro x u v gu gv c hx hc hu hv late
    rw [log] at hx
    have known : ∃ y, f u = some y := by
      obtain ⟨rfl, -⟩ | ⟨-, hu⟩ := update_cases hu
      · exact ⟨_, hf⟩
      · exact ⟨_, hu⟩
    obtain ⟨⟨g'', c'⟩, before⟩ := known
    obtain ⟨rfl, same⟩ | ⟨-, hv⟩ := update_cases hv
    · obtain ⟨rfl, rfl⟩ := Prod.mk.inj same
      by_cases new : g = .fresh
      · exact absurd before (begun new late x hx u _ hc)
      · exact h.alone hx hc before hf new
    · exact h.alone hx hc before hv late
  once := by
    rw [log]
    exact h.once.imp fun both t' u' hc hs ht hu =>
      both t' u' hc hs (isSome_update (by rw [hf]; rfl) ht) (isSome_update (by rw [hf]; rfl) hu)

theorem Books.stay (h : Books key w f) (hf : f t = some (g, false))
    (ended : b = true → g ≠ .charged) : Books key w (Function.update f t (some (g, b))) :=
  h.move hf (fun saved => h.kept (saved ▸ hf)) .inr ended (fun new begun => absurd new begun) id rfl

/-- Something happens, at the end of all that has happened so far. -/
theorem Books.note (h : Books key w f) (x : Happening)
    (paid : ∀ u g b, charges x = some u → f u = some (g, b) → Has key w ∨ g = .charged)
    (alone : ∀ u v g g' b, charges x = some u → f u = some (g, b) → f v = some (g', false) →
      g' ≠ .fresh → u = v)
    (once : ∀ y ∈ w.log, ∀ t u, charges y = some t → calls x = some u → (f t).isSome →
      (f u).isSome → u = t) : Books key (w.note x) f where
  kept := h.kept
  paid := fun hy hc hu => by
    obtain rfl | hy := List.mem_cons.mp hy
    · exact paid _ _ _ hc hu
    · exact h.paid hy hc hu
  settled := h.settled
  single := h.single
  alone := fun hy hc hu hv late => by
    obtain rfl | hy := List.mem_cons.mp hy
    · exact alone _ _ _ _ _ hc hu hv late
    · exact h.alone hy hc hu hv late
  once := List.pairwise_cons.mpr ⟨once, h.once⟩

/-- Nothing is called for or returned. -/
theorem Books.quiet (h : Books key w f) {new : List Happening}
    (quiet : ∀ x ∈ new, calls x = none) (log : w'.log = new ++ w.log)
    (store : Has key w → Has key w') : Books key w' f := by
  have old {x : Happening} (hx : x ∈ w'.log) {u : Tid} (hc : charges x = some u) : x ∈ w.log := by
    rw [log] at hx
    obtain hx | hx := List.mem_append.mp hx
    · cases (quiet x hx).symm.trans (calls_of_charges hc)
    · exact hx
  constructor
  · exact fun hu => store (h.kept hu)
  · exact fun hx hc hu => (h.paid (old hx hc) hc hu).imp_left store
  · exact h.settled
  · exact h.single
  · exact fun hx hc => h.alone (old hx hc) hc
  · rw [log]
    refine List.pairwise_append.mpr ⟨?_, h.once, ?_⟩
    · apply List.pairwise_of_forall_mem_list
      intro x _ y hy t u hc
      cases (quiet y hy).symm.trans (calls_of_charges hc)
    · intro x hx y _ t u _ hs
      cases (quiet x hx).symm.trans hs

theorem Books.silent (h : Books key w f) (log : w'.log = w.log) (store : Has key w → Has key w') :
    Books key w' f := by
  refine h.quiet ?_ (log.trans (List.nil_append _).symm) store
  nofun

/-- A call for the key is made, when all calls for it have ended if it is not idle itself. -/
theorem Books.spawn (h : Books key w f) (new : f t = none)
    (unheard : ∀ x ∈ w.log, calls x ≠ some t)
    (idle : b = false → ∀ u g, f u ≠ some (g, false)) :
    Books key w (Function.update f t (some (.fresh, b))) where
  kept := fun hu => by
    obtain ⟨-, same⟩ | ⟨-, hu⟩ := update_cases hu
    · cases same
    · exact h.kept hu
  paid := fun hx hc hu => by
    obtain ⟨rfl, -⟩ | ⟨-, hu⟩ := update_cases hu
    · exact absurd (calls_of_charges hc) (unheard _ hx)
    · exact h.paid hx hc hu
  settled := fun hu => by
    obtain ⟨-, same⟩ | ⟨-, hu⟩ := update_cases hu
    · cases same
    · exact h.settled hu
  single := fun hu hv => by
    obtain ⟨rfl, same⟩ | ⟨-, first⟩ := update_cases hu
    · obtain ⟨rfl, -⟩ | ⟨-, second⟩ := update_cases hv
      · rfl
      · exact absurd second (idle (congrArg Prod.snd same) _ _)
    · obtain ⟨rfl, same⟩ | ⟨-, second⟩ := update_cases hv
      · exact absurd first (idle (congrArg Prod.snd same) _ _)
      · exact h.single first second
  alone := fun hx hc hu hv late => by
    obtain ⟨rfl, same⟩ | ⟨-, second⟩ := update_cases hv
    · exact absurd (congrArg Prod.fst same).symm late
    · obtain ⟨rfl, -⟩ | ⟨-, first⟩ := update_cases hu
      · exact absurd (calls_of_charges hc) (unheard _ hx)
      · exact h.alone hx hc first second late
  once := by
    apply h.once.imp_of_mem
    intro x y hx hy both t' u' hc hs ht hu
    have asked {v : Tid} (unlike : v ≠ t)
        (hv : (Function.update f t (some (Stage.fresh, b)) v).isSome) : (f v).isSome := by
      rwa [Function.update_of_ne unlike] at hv
    have ht' : t' ≠ t := by
      rintro rfl
      exact unheard y hy (calls_of_charges hc)
    have hu' : u' ≠ t := by
      rintro rfl
      exact unheard x hx hs
    exact both t' u' hc hs (asked ht' ht) (asked hu' hu)

end Books

section Store

variable {key : RecordKey} {store : InMemoryPaymentStore}

theorem save_known {p : Payment} (h : p.key = key ∨ store.getByIdempotency key ≠ none) :
    (store.save p).getByIdempotency key ≠ none := by
  simp only [InMemoryPaymentStore.getByIdempotency, InMemoryPaymentStore.save] at h ⊢
  by_cases own : key = p.key
  · subst own
    simp
  · have known := h.resolve_left (Ne.symm own)
    rw [Function.update_of_ne own]
    cases keyed : store.keys key with
    | none => simp [keyed] at known
    | some id =>
      rw [keyed, Option.bind_some] at known
      rw [Option.bind_some]
      by_cases same : id = p.id
      · subst same
        simp
      · rwa [Function.update_of_ne same]

theorem commit_known (e : StoreEffect) (h : store.getByIdempotency key ≠ none) :
    (store.commit e).getByIdempotency key ≠ none := by
  cases e with
  | save p => exact save_known (.inr h)
  | saveWithEvents p events => exact save_known (.inr h)
  | _ => exact h

end Store

/-- A call for the key is only made when those made before have ended. -/
def Sequential (key : RecordKey) (s : ServiceState) (l : ServiceLabel) : Prop :=
  ∀ t c, l = .call t c → asks key c = true → ∀ u U, s.tasks u = some U →
    asks key U.call = true → U.code.isDone = true

/-- Between the result of a provider and its save no event fails to be appended, and a save that
raises has stored the payment. -/
def Durable (key : RecordKey) (s : ServiceState) (l : ServiceLabel) : Prop :=
  ∀ t T x stored, s.tasks t = some T → asks key T.call = true →
    (discipline key).phase T = .charged →
    l = .enter t (.fail x stored) ∨ l = .resume t (.fail x stored) →
      stored = true ∧ ∀ events, T.code.head ≠ some (.store (.append events))

section Step

variable {cfg : Config} {profile : Profile} {key : RecordKey} {s : ServiceState} {l : ServiceLabel}
  {t : Tid} {T : ServiceTask} {e : Effect} {r : e.Reply} {w : World} {g : Stage} {b : Bool}

theorem has_reply (h : Delivered (system cfg profile) s l t e (.reply r w))
    (has : Has key s.world) : Has key w := by
  cases e with
  | store e =>
    obtain ⟨m, rfl, outcome⟩ := store_outcome h
    cases outcome with
    | done => exact commit_known e has
    | copied external => exact has
    | @failed _ _ x stored external failing raised =>
      cases stored with
      | true => exact commit_known e has
      | false => exact has
  | _ =>
    have same : w.store = s.world.store := (reply_touches h).store fun _ => nofun
    rw [Has, same]
    exact has

/-- A save that does not fail without effect leaves a payment for the key. -/
theorem has_saved {e : StoreEffect} {r : e.Reply} {p : Payment} (keyed : p.key = key)
    (saves : ∀ m : InMemoryPaymentStore, (m.commit e).getByIdempotency key =
      (m.save p).getByIdempotency key) (unread : ∀ q, e ≠ .reread q)
    (stored : ∀ x stored, l = .enter t (.fail x stored) ∨ l = .resume t (.fail x stored) →
      stored = true)
    (h : Delivered (system cfg profile) s l t (.store e) (.reply r w)) : Has key w := by
  have committed : (s.world.store.commit e).getByIdempotency key ≠ none := by
    rw [saves]
    exact save_known (.inl keyed)
  obtain ⟨m, rfl, outcome⟩ := store_outcome h
  cases outcome with
  | done => exact committed
  | copied external => exact absurd rfl (unread _)
  | @failed _ _ x done external failing raised =>
    obtain rfl := stored x done failing
    exact committed

theorem unknown_reply (h : Delivered (system cfg profile) s l t (.store (.getByIdempotency key))
    (.reply (.ok none) w)) : ¬ Has key s.world := by
  obtain ⟨m, rfl, outcome⟩ := store_outcome h
  rw [Has, not_not]
  generalize found : (Except.ok none : (StoreEffect.getByIdempotency key).Reply) = r at outcome
  cases outcome with
  | done => exact (Except.ok.inj found).symm
  | failed external failing raised =>
    subst found
    cases raised

theorem reply_may (durable : Durable key s l) (task : s.tasks t = some T)
    (asked : asks key T.call = true)
    (h : Delivered (system cfg profile) s l t e (.reply r w)) :
    may ((discipline key).phase T) e r := by
  cases e with
  | store e =>
    cases e with
    | append events =>
      cases r with
      | ok _ => trivial
      | error x =>
        obtain ⟨stored, failing⟩ := store_raised rfl h
        obtain ⟨U, task', head⟩ := h.reached
        obtain rfl := Option.some.inj (task.symm.trans task')
        exact fun charged => (durable t T x stored task asked charged failing).2 events head
    | _ => trivial
  | _ => trivial

/-- The effects other than the calls of a provider for a payment. -/
def uncalled : Effect → Prop
  | .provider (.startPayment _ _ _ _ _) => False
  | .provider (.finishPayment _ _) => False
  | _ => True

theorem log_uncalled {w w' : World} (h : e.Touches w w') (he : uncalled e) :
    ∃ new, (∀ x ∈ new, calls x = none) ∧ w'.log = new ++ w.log := by
  cases e with
  | circuit e =>
    obtain ⟨c, new, circuit, rfl⟩ := h
    refine ⟨new, fun x hx => ?_, rfl⟩
    have only := circuit x hx
    cases x <;> first | rfl | cases only
  | provider e =>
    obtain rfl | ⟨x, hx, rfl⟩ := h
    · exact ⟨[], nofun, rfl⟩
    · refine ⟨[x], fun y hy => ?_, rfl⟩
      obtain rfl := List.mem_singleton.mp hy
      cases hx with
      | refunded => rfl
      | _ => exact he.elim
  | host e =>
    obtain rfl | ⟨-, rfl⟩ := h
    · exact ⟨[], nofun, rfl⟩
    · exact ⟨[], nofun, rfl⟩
  | stats e =>
    obtain ⟨_, _, rfl⟩ := h
    exact ⟨[], nofun, rfl⟩
  | _ =>
    obtain ⟨_, rfl⟩ := h
    exact ⟨[], nofun, rfl⟩

variable {f : Stages} (books : Books key s.world f)
  (h : Delivered (system cfg profile) s l t e (.reply r w))

include books h

theorem books_uncalled (he : uncalled e) : Books key w f := by
  obtain ⟨new, quiet, log⟩ := log_uncalled (reply_touches h) he
  exact books.quiet quiet log (has_reply h)

/-- What a call for another key does is nothing to the calls for the key. -/
theorem books_other (out : f t = none) : Books key w f := by
  by_cases he : uncalled e
  · exact books_uncalled books h he
  cases e with
  | provider e =>
    cases e with
    | startPayment p id amount currency token =>
      obtain rfl := startPayment_reply h
      refine books.note _ nofun nofun fun y _ u v _ called _ hv => ?_
      obtain rfl := Option.some.inj called
      rw [out] at hv
      cases hv
    | finishPayment p id =>
      obtain ⟨-, -, rfl⟩ := finishPayment_reply h
      have own {u : Tid} (hu : calls (.paymentEnded t p id r) = some u) : f u = none := by
        cases r with
        | ok _ =>
          obtain rfl := Option.some.inj hu
          exact out
        | error x => cases hu
      refine books.note _ (fun u g b hu hf => ?_) (fun u v g g' b hu hf => ?_) ?_
      · cases (own (calls_of_charges hu)).symm.trans hf
      · cases (own (calls_of_charges hu)).symm.trans hf
      · intro y _ u v _ called _ hv
        rw [own called] at hv
        cases hv
    | _ => exact absurd trivial he
  | _ => exact absurd trivial he

variable (hf : f t = some (g, false)) (ended : b = true → next g e r ≠ .charged)

include hf ended

theorem books_idle (he : idle e ∨ e.coordinating) (uncalled : uncalled e) :
    Books key w (Function.update f t (some (next g e r, b))) := by
  rw [idle_next he] at ended ⊢
  exact books_uncalled (books.stay hf ended) h uncalled

omit h ended in
/-- A result that is saved leaves a payment for the key. -/
theorem books_save {e : StoreEffect} {r : e.Reply} (h : Delivered (system cfg profile) s l t
      (.store e) (.reply r w)) (ended : b = true → g.save ≠ .charged)
    (saved : g = .charged → Has key w) :
    Books key w (Function.update f t (some (g.save, b))) := by
  have log : w.log = s.world.log := by
    obtain ⟨_, rfl⟩ := reply_touches h
    rfl
  refine books.move hf (fun later => ?_) (fun charged => .inl (saved charged)) ended ?_
    (has_reply h) log
  · cases g with
    | charged => exact saved rfl
    | saved => exact has_reply h (books.kept hf)
    | _ => cases later
  · rintro rfl begun
    exact absurd rfl begun

omit h ended in
/-- A result is that of the only call for the key that has not ended. -/
theorem books_charge {p : Provider} {id : Uuid} {result : ProviderPaymentResult}
    (begun : g ≠ .fresh)
    (ended : b = true → next g (.provider (.finishPayment p id)) (.ok result) ≠ .charged) :
    Books key (s.world.note (.paymentEnded t p id (.ok result))) (Function.update f t
      (some (next g (.provider (.finishPayment p id)) (.ok result), b))) := by
  have moved : Books key s.world (Function.update f t
      (some (next g (.provider (.finishPayment p id)) (.ok result), b))) := by
    cases g with
    | unused => exact books.move hf nofun nofun ended nofun (fun has => has) rfl
    | _ => exact books.stay hf ended
  have paid : Has key s.world ∨
      next g (.provider (.finishPayment p id)) (.ok result) = .charged := by
    cases g with
    | fresh => exact absurd rfl begun
    | saved => exact .inl (books.kept hf)
    | _ => exact .inr rfl
  refine moved.note _ (fun u g' b' charged hu => ?_) (fun u v g' g'' b' charged _ hv _ => ?_)
    fun y hy u v charged called hu _ => ?_
  · obtain rfl := Option.some.inj charged
    rw [Function.update_self] at hu
    obtain ⟨rfl, -⟩ := Prod.mk.inj (Option.some.inj hu)
    exact paid
  · obtain rfl := Option.some.inj charged
    obtain ⟨rfl, -⟩ | ⟨-, hv⟩ := update_cases hv
    · rfl
    · exact books.single hf hv
  · obtain rfl := Option.some.inj called
    obtain ⟨x, hx⟩ := Option.isSome_iff_exists.mp (isSome_update (by rw [hf]; rfl) hu)
    exact (books.alone hy charged hx hf begun).symm

omit h ended in
/-- A call that finds the key unused is the first that can have a result for it. -/
theorem books_ask {r : Except Exn (Option Payment)}
    (h : Delivered (system cfg profile) s l t (.store (.getByIdempotency key)) (.reply r w))
    (ended : b = true → next g (.store (.getByIdempotency key)) r ≠ .charged) :
    Books key w
      (Function.update f t (some (next g (.store (.getByIdempotency key)) r, b))) := by
  have quiet : uncalled (.store (.getByIdempotency key)) := trivial
  by_cases found : g = .fresh ∧ r = .ok none
  · obtain ⟨rfl, rfl⟩ := found
    have unknown := unknown_reply h
    refine books_uncalled (books.move hf nofun nofun ended ?_ id rfl) h quiet
    rintro - - x hx u ⟨g, b⟩ charged hu
    obtain has | rfl := books.paid hx charged hu
    · exact unknown has
    · cases b with
      | true => exact books.settled hu
      | false =>
        obtain rfl := books.single hf hu
        cases hf.symm.trans hu
  · have same : next g (.store (.getByIdempotency key)) r = g := by
      obtain x | (_ | p) := r
      · rfl
      · exact if_neg fun fresh => found ⟨fresh, rfl⟩
      · rfl
    rw [same] at ended ⊢
    exact books_uncalled (books.stay hf ended) h quiet

theorem books_reply (hok : ok key g e) (stored : g = .charged → ∀ x stored,
      l = .enter t (.fail x stored) ∨ l = .resume t (.fail x stored) → stored = true) :
    Books key w (Function.update f t (some (next g e r, b))) := by
  by_cases plain : (idle e ∨ e.coordinating) ∧ uncalled e
  · exact books_idle books h hf ended plain.1 plain.2
  cases e with
  | provider e =>
    cases e with
    | startPayment p id amount currency token =>
      obtain rfl := startPayment_reply h
      refine (books.stay hf ended).note _ nofun nofun fun y hy u v charged called hu _ => ?_
      obtain rfl := Option.some.inj called
      obtain ⟨x, hx⟩ := Option.isSome_iff_exists.mp (isSome_update (by rw [hf]; rfl) hu)
      exact (books.alone hy charged hx hf hok).symm
    | finishPayment p id =>
      obtain ⟨-, -, rfl⟩ := finishPayment_reply h
      cases r with
      | error x => exact (books.stay hf ended).note _ nofun nofun nofun
      | ok result => exact books_charge books hf hok ended
    | _ => exact absurd ⟨.inl trivial, trivial⟩ plain
  | store e =>
    cases e with
    | getByIdempotency k =>
      obtain rfl : k = key := hok
      exact books_ask books hf h ended
    | save p =>
      refine books_save books hf h ended fun charged => ?_
      exact has_saved hok (fun _ => rfl) (by nofun) (stored charged) h
    | saveWithEvents p events =>
      refine books_save books hf h ended fun charged => ?_
      exact has_saved hok (fun _ => rfl) (by nofun) (stored charged) h
    | _ => exact absurd ⟨.inl trivial, trivial⟩ plain
  | coordinator e => exact absurd ⟨.inr trivial, trivial⟩ plain
  | redis e => exact absurd ⟨.inr trivial, trivial⟩ plain
  | _ => exact absurd ⟨.inl trivial, trivial⟩ plain

end Step

/-- The calls of providers are those of calls that were made. -/
def Heard (w : World) (st : Statuses) : Prop :=
  ∀ x ∈ w.log, ∀ t, calls x = some t → st t ≠ none

theorem Heard.update {w w' : World} {st : Statuses} (h : Heard w st) {t : Tid}
    {new : List Happening} (own : ∀ x ∈ new, ∀ u, calls x = some u → u = t)
    (log : w'.log = new ++ w.log) (u : Status Call Stage) :
    Heard w' (Function.update st t (some u)) := by
  intro x hx v hv
  by_cases same : v = t
  · subst same
    simp
  · rw [Function.update_of_ne same]
    rw [log] at hx
    obtain hx | hx := List.mem_append.mp hx
    · exact absurd (own x hx v hv) same
    · exact h x hx v hv

def Inv (key : RecordKey) (w : World) (_ : Option Tid) (st : Statuses) : Prop :=
  Books key w (stages key st) ∧ Heard w st

section Run

variable {cfg : Config} {profile : Profile} {key : RecordKey} {s : ServiceState} {l : ServiceLabel}
  {t : Tid} {e : Effect} {w : World}

theorem log_reply {r : e.Reply} (h : Delivered (system cfg profile) s l t e (.reply r w)) :
    ∃ new, (∀ x ∈ new, ∀ u, calls x = some u → u = t) ∧ w.log = new ++ s.world.log := by
  by_cases he : uncalled e
  · obtain ⟨new, quiet, log⟩ := log_uncalled (reply_touches h) he
    refine ⟨new, fun x hx u hu => ?_, log⟩
    cases (quiet x hx).symm.trans hu
  cases e with
  | provider e =>
    cases e with
    | startPayment p id amount currency token =>
      obtain rfl := startPayment_reply h
      refine ⟨[.paymentStarted t p id], fun x hx u hu => ?_, rfl⟩
      obtain rfl := List.mem_singleton.mp hx
      exact (Option.some.inj hu).symm
    | finishPayment p id =>
      obtain ⟨-, -, rfl⟩ := finishPayment_reply h
      refine ⟨[.paymentEnded t p id r], fun x hx u hu => ?_, rfl⟩
      obtain rfl := List.mem_singleton.mp hx
      cases r with
      | ok _ => exact (Option.some.inj hu).symm
      | error x => cases hu
    | _ => exact absurd trivial he
  | _ => exact absurd trivial he

theorem wait_same (h : Delivered (system cfg profile) s l t e (.wait w)) :
    w.log = s.world.log ∧ w.store = s.world.store := by
  cases e with
  | store e =>
    obtain rfl := store_wait h
    exact ⟨rfl, rfl⟩
  | provider e =>
    obtain rfl := provider_wait h
    exact ⟨rfl, rfl⟩
  | circuit e => exact absurd h circuit_never_waits
  | stats e => exact absurd h stats_never_waits
  | host e =>
    obtain rfl | ⟨-, rfl⟩ := wait_touches h
    · exact ⟨rfl, rfl⟩
    · exact ⟨rfl, rfl⟩
  | _ =>
    obtain ⟨_, rfl⟩ := wait_touches h
    exact ⟨rfl, rfl⟩

theorem Inv.same {v v' : Option Tid} {w w' : World} {st : Statuses} (inv : Inv key w v st)
    (log : w'.log = w.log) (store : w'.store = w.store) : Inv key w' v' st := by
  refine ⟨inv.1.silent log ?_, ?_⟩
  · rw [Has, Has, store]
    exact id
  · rw [Heard, log]
    exact inv.2

theorem stages_asked {st : Statuses} {c : Call} {g : Stage} {b : Bool}
    (ht : st t = some ⟨c, g, b⟩) (asked : asks key c = true) :
    stages key st t = some (g, b) := by
  simp [stages, ht, asked]

theorem stages_some {u : Tid} {x : Stage × Bool}
    (h : stages key ((discipline key).statuses s) u = some x) : ∃ U, s.tasks u = some U ∧
      asks key U.call = true ∧ x = ((discipline key).phase U, U.code.isDone) := by
  obtain ⟨v, hv, asked⟩ := Option.bind_eq_some_iff.mp h
  obtain ⟨U, task, rfl⟩ := (discipline key).statuses_some hv
  split at asked
  · rename_i yes
    exact ⟨U, task, yes, (Option.some.inj asked).symm⟩
  · cases asked

theorem maintains (cfg : Config) (profile : Profile) (key : RecordKey) :
    Maintains (system cfg profile) (fun s l => Sequential key s l ∧ Durable key s l)
      (discipline key) (Inv key) where
  follows := run_follows cfg key
  call := fun {s t c b v} meets inv new _ => by
    refine ⟨?_, inv.2.update (by nofun) (List.nil_append _).symm _⟩
    have unheard : ∀ x ∈ s.world.log, calls x ≠ some t := fun x hx hc => inv.2 x hx t hc new
    by_cases asked : asks key c = true
    · rw [stages_update asked]
      refine inv.1.spawn (by simp [stages, new]) unheard fun _ u g hu => ?_
      obtain ⟨U, task, yes, same⟩ := stages_some hu
      have ended := meets.1 t c rfl asked u U task yes
      cases ended.symm.trans (congrArg Prod.snd same).symm
    · rw [stages_other (by simpa using asked) (by simp [new])]
      exact inv.1
  reply := fun {s l t c g e r w} meets inv ht hok h => by
    obtain ⟨T, task, same⟩ := (discipline key).statuses_some ht
    obtain rfl : T.call = c := congrArg Status.call same
    obtain rfl : (discipline key).phase T = g := congrArg Status.phase same
    obtain ⟨new, own, log⟩ := log_reply h
    by_cases asked : asks key T.call = true
    · simp only [discipline, asked, if_true] at hok ⊢
      refine ⟨reply_may meets.2 task asked h, fun b v goes => ⟨?_, inv.2.update own log _⟩⟩
      rw [stages_update asked]
      refine books_reply inv.1 h (stages_asked ht asked) ?_ hok ?_
      · rintro rfl
        cases goes with
        | ended post => exact post asked
      · exact fun charged x stored failing => (meets.2 t T x stored task asked charged failing).1
    · simp only [discipline, asked] at hok ⊢
      refine ⟨trivial, fun b v _ => ⟨?_, inv.2.update own log _⟩⟩
      have out : stages key ((discipline key).statuses s) t = none := by
        simp [stages, ht, asked]
      rw [stages_other (by simpa using asked) ?_]
      · exact books_other inv.1 h out
      · intro u hu
        obtain rfl := Option.some.inj (ht.symm.trans hu)
        simpa using asked
  wait := fun _ inv _ _ h => inv.same (wait_same h).1 (wait_same h).2
  outside := fun _ inv moved => inv.same (outside_frame moved).log (outside_frame moved).store

end Run

/-- The call of a task is a `create` for the key. -/
def Creates (key : RecordKey) (s : ServiceState) (t : Tid) : Prop :=
  ∃ T, s.tasks t = some T ∧ asks key T.call = true

/-- After a provider has returned a result for the key, no other call for the key calls a
provider. -/
def Unrepeated (key : RecordKey) (s : ServiceState) : Prop :=
  s.world.log.Pairwise fun later earlier => ∀ t u, charges earlier = some t →
    starts later = some u → Creates key s t → Creates key s u → u = t

/-- A result that is saved is not charged for again. -/
theorem charged_once {cfg : Config} {profile : Profile} {key : RecordKey} {w : World}
    (silent : w.log = []) {s : ServiceState}
    (h : Reaches (system cfg profile) (fun s l => Sequential key s l ∧ Durable key s l)
      (.empty w) s) : Unrepeated key s := by
  have first : Inv key w none fun _ => none := by
    refine ⟨⟨nofun, ?_, nofun, nofun, ?_, ?_⟩, ?_⟩
    · exact fun _ _ hu => by cases hu
    · exact fun _ _ hu => by cases hu
    · rw [silent]
      exact .nil
    · rw [Heard, silent]
      nofun
  obtain ⟨-, books, -⟩ := (maintains cfg profile key).reaches_empty first h
  refine books.once.imp fun once t u charged started ht hu =>
    once t u charged (calls_of_starts started) ?_ ?_
  · obtain ⟨T, task, asked⟩ := ht
    rw [stages_asked ((discipline key).statuses_of_task task) asked]
    rfl
  · obtain ⟨U, task, asked⟩ := hu
    rw [stages_asked ((discipline key).statuses_of_task task) asked]
    rfl

/-- A check that the tasks `ts` have all ended when a call is made. -/
def orderly (ts : List Tid) (s : ServiceState) : ServiceLabel → Bool
  | .call _ _ => ts.all s.ended
  | _ => true

theorem checked_reaches {cfg : Config} {profile : Profile} {ts : List Tid}
    {C : ServiceState → ServiceLabel → Prop} [∀ s l, Decidable (C s l)] (key : RecordKey)
    (checks : ∀ s l, C s l → orderly ts s l = true) {ls : List ServiceLabel} {s s' : ServiceState}
    (known : ∀ u, s.tasks u ≠ none → u ∈ ts) (calls : ∀ t ∈ called ls, t ∈ ts)
    (h : runWhile (system cfg profile) C ls s = some s') :
    Reaches (system cfg profile) (fun s l => Sequential key s l ∧ C s l) s s' := by
  refine runWhile_within _ (fun s l known meets => ⟨?_, meets⟩) known calls h
  rintro t c rfl - u U task -
  have ended := List.all_eq_true.mp (checks s _ meets) u (known u (by simp [task]))
  simpa [State.ended, task] using ended

/-- A check that no event fails to be appended and that saves that raise have stored. -/
def durable (s : ServiceState) : ServiceLabel → Bool
  | .enter t (.fail _ stored) => stored && ((s.tasks t).bind fun T => T.code.head).all fun e =>
      match e with
      | .store (.append _) => false
      | _ => true
  | .resume _ (.fail _ _) => false
  | _ => true

theorem durable_meets {key : RecordKey} {s : ServiceState} {l : ServiceLabel}
    (h : durable s l = true) : Durable key s l := by
  rintro t T x stored task - - (rfl | rfl)
  · obtain ⟨stores, saves⟩ := (Bool.and_eq_true _ _).mp h
    refine ⟨stores, fun events head => ?_⟩
    simp [task, head] at saves
  · cases h

/-- A payment of one provider, up to the save of the result. -/
def chargedRun (t : Tid) : List ServiceLabel :=
  create t 0 (card "a") 1 ++ ask t 0 ++ start t ++ returns t "reference" ++ recordSuccess t 0 ++
  (List.replicate 3 (event t 0)).flatten

/-- The save raises, and the claim is released. -/
def unsavedRun (t : Tid) (stored : Bool) : List ServiceLabel :=
  chargedRun t ++ [.enter t (.fail (.other "connection lost") stored), .enter t .go]

/-- The save has stored the payment before it raised, and the next call finds it. -/
def storedRun : List ServiceLabel :=
  unsavedRun 0 true ++ [.call 1 (.create (card "a")), .enter 1 .go, .enter 1 .go, .enter 1 .go]

theorem charged_once_stored :
    ∃ s ∈ run (system (service ["stripe"] 1) { storage := .external }) storedRun
      (.empty (.initial fragile [])), s.world.log.filterMap charges = [0] ∧
        s.world.log.filterMap starts = [0] ∧ (∀ t ∈ [0, 1], s.ended t = true) ∧
        Unrepeated (card "a").key s := by
  have h : ∃ s ∈ runWhile (system (service ["stripe"] 1) { storage := .external })
      (fun s l => orderly [0, 1] s l = true ∧ durable s l = true) storedRun
      (.empty (.initial fragile [])), s.world.log.filterMap charges = [0] ∧
        s.world.log.filterMap starts = [0] ∧ ∀ t ∈ [0, 1], s.ended t = true := by
    decide +kernel
  obtain ⟨s, moved, charged, started, ended⟩ := h
  have reached : Reaches (system (service ["stripe"] 1) { storage := .external })
      (fun s l => Sequential (card "a").key s l ∧ Durable (card "a").key s l)
      (.empty (.initial fragile [])) s :=
    (checked_reaches _ (fun _ _ => And.left) (fun _ task => absurd rfl task) (by decide)
      moved).mono fun _ _ meets => ⟨meets.1, durable_meets meets.2.2⟩
  exact ⟨s, runWhile_run _ moved, charged, started, ended, charged_once rfl reached⟩

/-- The save has not stored the payment, and the next call charges for it again. -/
def chargedAgainRun : List ServiceLabel :=
  unsavedRun 0 false ++ create 1 0 (card "a") 1 ++ ask 1 0 ++ [.enter 1 .go]

theorem charged_again : ¬ ∀ s, Reaches (system (service ["stripe"] 1) { storage := .external })
    (Sequential (card "a").key) (.empty (.initial fragile [])) s →
      Unrepeated (card "a").key s := by
  intro once
  have h : ∃ s ∈ runWhile (system (service ["stripe"] 1) { storage := .external })
      (fun s l => orderly [0, 1] s l = true) chargedAgainRun (.empty (.initial fragile [])),
      (∃ T ∈ s.tasks 0, asks (card "a").key T.call = true) ∧
      (∃ T ∈ s.tasks 1, asks (card "a").key T.call = true) ∧
      ¬ s.world.log.Pairwise fun later earlier =>
        charges earlier = some 0 → starts later ≠ some 1 := by
    decide +kernel
  obtain ⟨s, moved, first, second, again⟩ := h
  have reached : Reaches (system (service ["stripe"] 1) { storage := .external })
      (Sequential (card "a").key) (.empty (.initial fragile [])) s :=
    (checked_reaches _ (fun _ _ => id) (fun _ task => absurd rfl task) (by decide) moved).mono
      fun _ _ => And.left
  refine again ((once s reached).imp fun both charged started => ?_)
  cases both 0 1 charged started first second

end PySwitch.Charges
