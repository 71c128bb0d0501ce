import PySwitch.Consumers
import PySwitch.OutboxDispatch

namespace PySwitch.Pipeline

open Async OutboxLog

abbrev ConsumerState : Type := Redelivery.ConsumerState

abbrev DispatchState : Type := OutboxDispatch.DispatchState

/-- The effect is called for events that were delivered. -/
def Delivers (w : ConsumerWorld) (_ : Option Tid) (st : Redelivery.Statuses) : Prop :=
  ∀ id ∈ w.called, ∃ t u, st t = some u ∧ u.call.id = id

section Deliver

variable {s : ConsumerState} {l : Redelivery.ConsumerLabel} {t : Tid} {e : ConsumerEffect}
  {r : e.Reply} {w : ConsumerWorld} {g : Redelivery.Stage} {event : EventEnvelope} {b : Bool}

theorem delivers_update {st : Redelivery.Statuses} {g' : Redelivery.Stage} {v v' : Option Tid}
    (h : Delivers w v st) (same : ∀ u, st t = some u → u.call = event) :
    Delivers w v' (Function.update st t (some ⟨event, g', b⟩)) := by
  intro id mem
  obtain ⟨u, x, hu, call⟩ := h id mem
  by_cases here : u = t
  · subst here
    exact ⟨u, _, Function.update_self .., by rw [← call, same x hu]⟩
  · exact ⟨u, x, by simpa [here] using hu, call⟩

theorem delivers_reply (h : Delivers s.world s.running (Redelivery.discipline.statuses s))
    (ht : Redelivery.discipline.statuses s t = some ⟨event, g, false⟩)
    (hok : Redelivery.ok event g e)
    (delivered : Delivered (consuming true) s l t e (.reply r w)) (v : Option Tid) :
    Delivers w v (Function.update (Redelivery.discipline.statuses s) t
      (some ⟨event, Redelivery.next g e r, b⟩)) := by
  have before : Delivers s.world v (Function.update (Redelivery.discipline.statuses s) t
      (some ⟨event, Redelivery.next g e r, b⟩)) := by
    apply delivers_update h
    intro u hu
    rw [← Option.some.inj (ht.symm.trans hu)]
  have noted (passed : EventEnvelope) (completed : Bool) (own : passed = event) :
      Delivers (s.world.note passed completed) v (Function.update
        (Redelivery.discipline.statuses s) t (some ⟨event, Redelivery.next g e r, b⟩)) := by
    intro id mem
    rw [Redelivery.called_note] at mem
    obtain mem | mem := List.mem_append.mp mem
    · exact before id mem
    · rw [List.mem_singleton.mp mem, own]
      exact ⟨t, _, Function.update_self .., rfl⟩
  have own {passed : EventEnvelope} (at_ : Redelivery.ok event g (.effect passed)) :
      passed = event := by
    cases g with
    | recorded => exact at_
    | _ => exact at_.elim
  cases Redelivery.reply_moved delivered with
  | completed => exact noted _ true (own hok)
  | raised => exact noted _ false (own hok)
  | _ => exact before

end Deliver

theorem delivers_extends : Extends (consuming true) (fun _ _ => True) Redelivery.discipline
    Redelivery.Inv Delivers where
  call := fun {s t event b v} _ h new _ => by
    apply delivers_update h
    intro u hu
    cases new.symm.trans hu
  reply := fun _ _ h ht hok delivered _ v _ _ => delivers_reply h ht hok delivered v
  wait := fun _ _ h _ _ delivered => by
    obtain ⟨-, guard, rfl⟩ := Redelivery.wait_lock delivered
    exact h
  outside := fun {_ a _} _ _ _ => a.elim

theorem delivers_reached {c : ConsumerState}
    (h : Reaches (consuming true) (fun _ _ => True) (.empty .initial) c) :
    ∀ id ∈ c.world.called, ∃ t T, c.tasks t = some T ∧ T.call.id = id := by
  have M := delivers_extends.maintains Redelivery.maintains fun _ _ => id
  obtain ⟨-, -, delivers⟩ := M.reaches_empty ⟨Redelivery.inv_initial, fun id mem => by cases mem⟩ h
  intro id mem
  obtain ⟨t, u, hu, call⟩ := delivers id mem
  obtain ⟨T, task, rfl⟩ := Redelivery.discipline.statuses_some hu
  exact ⟨t, T, task, call⟩

theorem outbox_inv {d : DispatchState}
    (h : Reaches dispatching (fun _ _ => True) (.empty .initial) d) :
    OutboxDispatch.Inv d.world d.running (OutboxDispatch.discipline.statuses d) := by
  have first : OutboxDispatch.Inv .initial none (fun _ => none) := by
    refine ⟨⟨rfl, fun e mem => by cases mem⟩, fun id published => ?_, List.nil_prefix,
      fun hu => by cases hu⟩
    cases published
  exact (OutboxDispatch.maintains.reaches_empty first h).2

/-- The deliveries to a consumer are of events the broker has accepted. -/
def Fed (d : DispatchState) (c : ConsumerState) : Prop :=
  ∀ t T, c.tasks t = some T → T.call.id ∈ ids d.world.accepted

/-- Every event the broker has accepted was delivered, and that delivery has returned. -/
def Served (d : DispatchState) (c : ConsumerState) : Prop :=
  ∀ event ∈ d.world.accepted, ∃ t T b, c.tasks t = some T ∧ T.call.id = event.id ∧
    c.result t = some (.ok b)

/-- Whatever is published again after a failure and delivered again: the effect of a consumer is
called once at most for an event, and only for one that was appended to the outbox. When the
outbox has been emptied and the broker has served the consumer, it was called exactly once for
each. -/
theorem effects_once {d : DispatchState} {c : ConsumerState}
    (published : Reaches dispatching (fun _ _ => True) (.empty .initial) d)
    (consumed : Reaches (consuming true) (fun _ _ => True) (.empty .initial) c) (fed : Fed d c) :
    (c.world.called.Nodup ∧ ∀ id ∈ c.world.called, id ∈ ids d.world.appended) ∧
    ((∀ event ∈ d.world.appended, d.world.store.published event.id = true) → Served d c →
      ∀ event ∈ d.world.appended, c.world.called.count event.id = 1) := by
  have outbox := outbox_inv published
  obtain ⟨kept, inv⟩ := Redelivery.reaches_inv consumed
  refine ⟨⟨inv.once, fun id mem => ?_⟩, fun drained served event appended => ?_⟩
  · obtain ⟨t, T, task, rfl⟩ := delivers_reached consumed id mem
    have accepted := List.mem_eraseDups.mpr (fed t T task)
    have stored := outbox.first.subset accepted
    rw [outbox.logs.order, List.mem_eraseDups] at stored
    exact stored
  · obtain ⟨other, accepted, same⟩ :=
      List.mem_map.mp (outbox.marked event.id (drained event appended))
    obtain ⟨t, T, b, task, call, result⟩ := served other accepted
    have answer := Redelivery.result_answer kept task result
    have called := inv.answered (Redelivery.discipline.statuses_of_task task) answer
    have once := List.nodup_iff_count_le_one.mp inv.once event.id
    have positive : 0 < c.world.called.count event.id := by
      apply List.count_pos_iff.mpr
      rw [← same, ← call]
      exact called
    omega

/-- The deliveries of the events that a dispatcher has published, one of them twice. -/
def redelivered : List Redelivery.ConsumerLabel :=
  Redelivery.first 0 (OutboxDispatch.circuitEvent 4) (.ok ()) ++
  Redelivery.again 1 (OutboxDispatch.circuitEvent 4) ++
  Redelivery.first 2 (OutboxDispatch.circuitEvent 2) (.ok ())

/-- The first event is published twice, as its first mark fails, and delivered twice. -/
theorem effects_once_redelivered :
    ∃ d ∈ run dispatching OutboxDispatch.markedLate (.empty .initial),
    ∃ c ∈ run (consuming true) redelivered (.empty .initial),
      ids d.world.accepted = [4, 4, 2] ∧ c.world.called = [4, 2] ∧
      (c.world.called.Nodup ∧ ∀ id ∈ c.world.called, id ∈ ids d.world.appended) ∧
      ∀ event ∈ d.world.appended, c.world.called.count event.id = 1 := by
  have outbox : ∃ d ∈ run dispatching OutboxDispatch.markedLate (.empty .initial),
      ids d.world.accepted = [4, 4, 2] ∧
      ∀ event ∈ d.world.appended, d.world.store.published event.id = true := by
    decide +kernel
  have consumer : ∃ c ∈ run (consuming true) redelivered (.empty .initial),
      c.world.called = [4, 2] ∧
      (∀ t ∈ called redelivered, (c.tasks t).all fun T => T.call.id ∈ [4, 4, 2]) ∧
      ∀ id ∈ [4, 4, 2], ∃ t ∈ called redelivered,
        (c.tasks t).any (fun T => T.call.id = id) = true ∧ c.result t = some (.ok true) := by
    decide +kernel
  obtain ⟨d, published, accepted, drained⟩ := outbox
  obtain ⟨c, consumed, effects, known, returned⟩ := consumer
  have fed : Fed d c := by
    intro t T task
    have all := known t (run_called _ consumed task)
    rw [task] at all
    rw [accepted]
    exact of_decide_eq_true all
  have served : Served d c := by
    intro event mem
    have mem : event.id ∈ ids d.world.accepted := List.mem_map_of_mem mem
    rw [accepted] at mem
    obtain ⟨t, -, found, result⟩ := returned event.id mem
    obtain ⟨T, task, call⟩ := (Option.any_eq_true ..).mp found
    exact ⟨t, T, true, task, of_decide_eq_true call, result⟩
  have sound := effects_once
    (run_reaches _ (throughout_of_forall _ (fun _ _ _ => trivial) _) published)
    (run_reaches _ (throughout_of_forall _ (fun _ _ _ => trivial) _) consumed) fed
  exact ⟨d, published, c, consumed, accepted, effects, sound.1, sound.2 drained served⟩

end PySwitch.Pipeline
