import PySwitch.Coordinator
import Mathlib.Logic.Function.Basic

namespace PySwitch.MemoryIdempotencyCoordinator

open Async

/-- The event of a waiter is the one its owner is going to set. -/
structure Awaited (c : MemoryIdempotencyCoordinator) (key : RecordKey) (fingerprint : String)
    (event : ℕ) : Prop where
  registered : c.events key = some event
  unfinished : ∃ r, c.records key = some r ∧ r.completed = false ∧ r.fingerprint = fingerprint

/-- What the tasks ask for is `asks`. Nobody waits for an event that nobody will set. -/
structure Wakeful (c : MemoryIdempotencyCoordinator) (asks : Tid → Option (RecordKey × String)) :
    Prop where
  issued : ∀ {key event}, c.events key = some event → event < c.nextEvent
  distinct : ∀ {key key' event}, c.events key = some event → c.events key' = some event →
    key = key'
  registered : ∀ {key r}, c.records key = some r → r.completed = false → c.events key ≠ none
  waiting : ∀ {t event}, c.waiting t = some event → event < c.nextEvent ∧
    ∃ key fingerprint, asks t = some (key, fingerprint) ∧
      (c.isSet event = true ∨ c.Awaited key fingerprint event)

variable {c c' : MemoryIdempotencyCoordinator} {asks asks' : Tid → Option (RecordKey × String)}
  {t : Tid} {key : RecordKey} {fingerprint : String}

theorem wakeful_empty (asks : Tid → Option (RecordKey × String)) : empty.Wakeful asks :=
  ⟨nofun, nofun, nofun, nofun⟩

theorem Awaited.transfer {event : ℕ} (h : c.Awaited key fingerprint event)
    (events : c'.events key = c.events key) (records : c'.records key = c.records key) :
    c'.Awaited key fingerprint event :=
  ⟨events.trans h.registered, by rw [records]; exact h.unfinished⟩

namespace Wakeful

theorem mono (h : c.Wakeful asks) (more : ∀ t x, asks t = some x → asks' t = some x) :
    c.Wakeful asks' where
  issued := h.issued
  distinct := h.distinct
  registered := h.registered
  waiting := fun hw => by
    obtain ⟨hlt, key, fingerprint, ha, hs⟩ := h.waiting hw
    exact ⟨hlt, key, fingerprint, more _ _ ha, hs⟩

theorem claim (h : c.Wakeful asks) (vacant : c.records key = none) :
    (c.claim key fingerprint).Wakeful asks where
  issued := fun {k event} he => by
    simp only [MemoryIdempotencyCoordinator.claim, Function.update_apply] at he ⊢
    split at he
    · cases he
      exact Nat.lt_succ_self _
    · exact Nat.lt_succ_of_lt (h.issued he)
  distinct := fun {k k' event} he he' => by
    simp only [MemoryIdempotencyCoordinator.claim, Function.update_apply] at he he'
    split at he <;> split at he'
    · rename_i hk hk'
      rw [hk, hk']
    · cases he
      exact absurd (h.issued he') (Nat.lt_irrefl _)
    · cases he'
      exact absurd (h.issued he) (Nat.lt_irrefl _)
    · exact h.distinct he he'
  registered := fun {k r} hr hc => by
    simp only [MemoryIdempotencyCoordinator.claim, Function.update_apply] at hr ⊢
    split
    · exact Option.some_ne_none _
    · rename_i hk
      rw [if_neg hk] at hr
      exact h.registered hr hc
  waiting := fun {u event} hw => by
    obtain ⟨hlt, k, f, ha, hs⟩ := h.waiting hw
    refine ⟨Nat.lt_succ_of_lt hlt, k, f, ha, ?_⟩
    obtain hs | ⟨he, r, hr, hc, hf⟩ := hs
    · left
      simpa only [MemoryIdempotencyCoordinator.claim, Function.update_of_ne (Nat.ne_of_lt hlt)]
    · right
      have hk : k ≠ key := by
        rintro rfl
        cases vacant.symm.trans hr
      refine ⟨?_, r, ?_, hc, hf⟩
      · simpa only [MemoryIdempotencyCoordinator.claim, Function.update_of_ne hk]
      · simpa only [MemoryIdempotencyCoordinator.claim, Function.update_of_ne hk]

/-- Only who waits has changed. -/
theorem rewait (h : c.Wakeful asks) (records : c'.records = c.records)
    (events : c'.events = c.events) (isSet : c'.isSet = c.isSet)
    (nextEvent : c'.nextEvent = c.nextEvent)
    (waiting : ∀ u event, c'.waiting u = some event → c.waiting u = some event ∨
      ∃ key fingerprint, asks u = some (key, fingerprint) ∧ c.Awaited key fingerprint event) :
    c'.Wakeful asks where
  issued := fun he => by
    rw [events] at he
    rw [nextEvent]
    exact h.issued he
  distinct := fun he he' => h.distinct (events ▸ he) (events ▸ he')
  registered := fun hr hc => by
    rw [events]
    exact h.registered (records ▸ hr) hc
  waiting := fun {u event} hw => by
    rw [nextEvent, isSet]
    obtain hw | ⟨key, fingerprint, ha, awaited⟩ := waiting u event hw
    · obtain ⟨hlt, key, fingerprint, ha, hs⟩ := h.waiting hw
      refine ⟨hlt, key, fingerprint, ha, hs.imp id fun awaited => ?_⟩
      exact awaited.transfer (congrFun events key) (congrFun records key)
    · exact ⟨h.issued awaited.registered, key, fingerprint, ha,
        .inr (awaited.transfer (congrFun events key) (congrFun records key))⟩

theorem forget (h : c.Wakeful asks) : (c.forget t).Wakeful asks := by
  refine h.rewait rfl rfl rfl rfl fun u event hw => .inl ?_
  simp only [MemoryIdempotencyCoordinator.forget, Function.update_apply] at hw
  split at hw
  · cases hw
  · exact hw

theorem wait (h : c.Wakeful asks) (ha : asks t = some (key, fingerprint)) {event : ℕ}
    (awaited : c.Awaited key fingerprint event) :
    Wakeful { c with waiting := Function.update c.waiting t (some event) } asks := by
  refine h.rewait rfl rfl rfl rfl fun u event' hw => ?_
  simp only [Function.update_apply] at hw
  split at hw
  · rename_i hu
    cases hw
    exact .inr ⟨key, fingerprint, hu ▸ ha, awaited⟩
  · exact .inl hw

/-- Closing the record of a key wakes everyone who waits for it. -/
theorem close (h : c.Wakeful asks) {record : Option IdempotencyRecord}
    (closed : ∀ r, record = some r → r.completed = true)
    (records : c'.records = Function.update c.records key record)
    (events : c'.events = c.events) (nextEvent : c'.nextEvent = c.nextEvent)
    (waiting : c'.waiting = c.waiting)
    (sets : ∀ event, c.isSet event = true ∨ c.events key = some event → c'.isSet event = true) :
    c'.Wakeful asks where
  issued := fun he => by
    rw [events] at he
    rw [nextEvent]
    exact h.issued he
  distinct := fun he he' => h.distinct (events ▸ he) (events ▸ he')
  registered := fun {k r} hr hc => by
    rw [records, Function.update_apply] at hr
    rw [events]
    split at hr
    · rw [closed r hr] at hc
      cases hc
    · exact h.registered hr hc
  waiting := fun {u event} hw => by
    rw [waiting] at hw
    rw [nextEvent]
    obtain ⟨hlt, k, f, ha, hs⟩ := h.waiting hw
    refine ⟨hlt, k, f, ha, ?_⟩
    obtain hs | awaited := hs
    · exact .inl (sets event (.inl hs))
    · by_cases hk : k = key
      · subst k
        exact .inl (sets event (.inr awaited.registered))
      · refine .inr (awaited.transfer (congrFun events k) ?_)
        rw [records, Function.update_of_ne hk]

/-- Setting the event of a key after its record has been closed. -/
theorem closeEvent (h : c.Wakeful asks) {record : Option IdempotencyRecord}
    (closed : ∀ r, record = some r → r.completed = true) :
    ({ c with records := Function.update c.records key record }.setEvent key).Wakeful asks := by
  have kept := setEvent_records { c with records := Function.update c.records key record } key
  apply h.close closed kept.1 kept.2
  · unfold setEvent
    split <;> rfl
  · unfold setEvent
    split <;> rfl
  · intro event hs
    unfold setEvent
    split
    · rename_i event' he
      simp only [Function.update_apply]
      split
      · rfl
      · rename_i hne
        obtain hs | hs := hs
        · exact hs
        · exact absurd (Option.some.inj (hs.symm.trans he)) hne
    · rename_i he
      obtain hs | hs := hs
      · exact hs
      · cases hs.symm.trans he

theorem complete (h : c.Wakeful asks) (paymentId : Uuid) :
    (c.complete key fingerprint paymentId).2.Wakeful asks := by
  unfold MemoryIdempotencyCoordinator.complete
  split
  · exact h
  · split
    · exact h
    · exact h.closeEvent fun r hr => by
        cases hr
        rfl

theorem abort (h : c.Wakeful asks) : (c.abort key fingerprint).Wakeful asks := by
  unfold MemoryIdempotencyCoordinator.abort
  split
  · exact h
  · split
    · exact h.closeEvent nofun
    · exact h

theorem acquire (h : c.Wakeful asks) (ha : asks t = some (key, fingerprint)) :
    (c.acquire t key fingerprint).Meets (fun c' => c'.Wakeful asks) := by
  unfold MemoryIdempotencyCoordinator.acquire
  split
  · rename_i vacant
    exact h.claim vacant
  · rename_i r found
    split
    · exact h
    · rename_i same
      split
      · exact h
      · rename_i pending
        split
        · rename_i event registered
          exact h.wait ha ⟨registered, r, found, by simpa using pending, not_not.mp same⟩
        · exact h

end Wakeful

/-- Nobody but the task itself starts or stops waiting. -/
def Minds (t : Tid) (c c' : MemoryIdempotencyCoordinator) : Prop :=
  ∀ u, u ≠ t → c'.waiting u = c.waiting u

theorem minds_setEvent (c : MemoryIdempotencyCoordinator) (key : RecordKey) :
    (c.setEvent key).waiting = c.waiting := by
  unfold setEvent
  split <;> rfl

theorem minds_acquire (c : MemoryIdempotencyCoordinator) (t : Tid) (key : RecordKey)
    (fingerprint : String) : (c.acquire t key fingerprint).Meets (c.Minds t) := by
  unfold acquire
  split
  · exact fun _ _ => rfl
  · split
    · exact fun _ _ => rfl
    · split
      · exact fun _ _ => rfl
      · split
        · exact fun u hu => Function.update_of_ne hu ..
        · exact fun _ _ => rfl

theorem minds_complete (c : MemoryIdempotencyCoordinator) (key : RecordKey) (fingerprint : String)
    (paymentId : Uuid) : (c.complete key fingerprint paymentId).2.waiting = c.waiting := by
  unfold complete
  split
  · rfl
  · split
    · rfl
    · exact minds_setEvent _ _

theorem minds_abort (c : MemoryIdempotencyCoordinator) (key : RecordKey) (fingerprint : String) :
    (c.abort key fingerprint).waiting = c.waiting := by
  unfold abort
  split
  · rfl
  · split
    · exact minds_setEvent _ _
    · rfl

theorem minds_forget (c : MemoryIdempotencyCoordinator) (t : Tid) : c.Minds t (c.forget t) :=
  fun _ hu => Function.update_of_ne hu ..

theorem acquire_waiting (h : c.acquire t key fingerprint = .wait c') : c'.waiting t ≠ none := by
  unfold acquire at h
  split at h
  · cases h
  · split at h
    · cases h
    · split at h
      · cases h
      · split at h <;> cases h
        simp

section Effects

variable {e : CoordinatorEffect} (h : c.Wakeful asks)
  (ha : ∀ key fingerprint, e = .acquire key fingerprint → asks t = some (key, fingerprint))

include h ha

theorem enter_wakeful (i : Input) :
    (enter t e i c).Meets fun c' => c'.Wakeful asks ∧ c.Minds t c' := by
  cases i with
  | go =>
    cases e with
    | acquire key fingerprint =>
      have awake := h.acquire (t := t) (ha key fingerprint rfl)
      have minds := minds_acquire c t key fingerprint
      simp only [enter]
      cases hr : c.acquire t key fingerprint with
      | refuse => trivial
      | _ =>
        rw [hr] at awake minds
        exact ⟨awake, minds⟩
    | complete key fingerprint paymentId =>
      exact ⟨h.complete paymentId, fun u _ => congrFun (minds_complete c ..) u⟩
    | abort key fingerprint => exact ⟨h.abort, fun u _ => congrFun (minds_abort c ..) u⟩
  | _ => cases e <;> trivial

theorem resume_wakeful (i : Input) :
    (resume t e i c).Meets fun c' => c'.Wakeful asks ∧ c.Minds t c' := by
  cases e with
  | acquire key fingerprint =>
    cases i with
    | go =>
      simp only [resume]
      split
      · split
        · have awake := h.forget.acquire (t := t) (c := c.forget t) (ha key fingerprint rfl)
          have minds := minds_acquire (c.forget t) t key fingerprint
          have both {c' : MemoryIdempotencyCoordinator} (hm : (c.forget t).Minds t c') :
              c.Minds t c' := fun u hu => (hm u hu).trans (minds_forget c t u hu)
          cases hr : (c.forget t).acquire t key fingerprint with
          | refuse => trivial
          | _ =>
            rw [hr] at awake minds
            exact ⟨awake, both minds⟩
        · trivial
      · trivial
    | cancel => exact ⟨h.forget, minds_forget c t⟩
    | _ => trivial
  | _ => cases i <;> trivial

end Effects

theorem enter_waiting {e : CoordinatorEffect} {i : Input} (h : enter t e i c = .wait c') :
    c'.waiting t ≠ none := by
  cases i with
  | go =>
    cases e with
    | acquire key fingerprint => exact acquire_waiting h
    | _ => cases h
  | _ => cases e <;> cases h

theorem resume_waiting {e : CoordinatorEffect} {i : Input} (h : resume t e i c = .wait c') :
    c'.waiting t ≠ none := by
  cases e with
  | acquire key fingerprint =>
    cases i with
    | go =>
      simp only [resume] at h
      split at h
      · split at h
        · exact acquire_waiting h
        · cases h
      · cases h
    | _ => cases h
  | _ => cases i <;> cases h

end PySwitch.MemoryIdempotencyCoordinator
