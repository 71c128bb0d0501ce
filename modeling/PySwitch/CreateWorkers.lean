import PySwitch.Cluster

namespace PySwitch.Workers

open Async

abbrev WorkersState : Type :=
  State Tid PaymentInput Effect Effect.Reply (Except Exn Payment) Cluster

abbrev WorkersLabel : Type := Label Tid PaymentInput Input (ℕ × Outside)

abbrev WorkersTask : Type := Task PaymentInput Effect Effect.Reply (Except Exn Payment)

/-- Calls of `create` on several workers. A worker touches what is shared only where it waits, so
that one event loop stands for all of theirs. -/
def workers (cfg : Config) (profile : Profile) (worker : Tid → ℕ) :
    System Tid PaymentInput Effect Effect.Reply (Except Exn Payment) Input (ℕ × Outside)
      Cluster where
  program data := (Service.create cfg data).start {}
  enter t e i c := (Effect.enter profile t e i (c.world (worker t))).lift (c.setWorld (worker t))
  resume t e i c := (Effect.resume profile t e i (c.world (worker t))).lift (c.setWorld (worker t))
  outside a c := (a.2.apply (c.world a.1)).map (c.setWorld a.1)

variable {cfg : Config} {profile : Profile} {worker : Tid → ℕ} {s : WorkersState}
  {l : WorkersLabel} {t : Tid} {e : Effect} {c : Cluster}

/-- The label of one process that stands for a label of the workers. -/
def Same (t : Tid) (l' : ServiceLabel) (l : WorkersLabel) : Prop :=
  ∀ i, (l' = .enter t i → l = .enter t i) ∧ (l' = .resume t i → l = .resume t i)

/-- An effect of a worker is answered as in a process of its own. -/
theorem delivered_alone {a : Answer e.Reply Cluster}
    (h : Delivered (workers cfg profile worker) s l t e a) :
    ∃ (s' : ServiceState) (l' : ServiceLabel) (b : Answer e.Reply World),
      s'.world = s.world.world (worker t) ∧ a = b.lift (s.world.setWorld (worker t)) ∧
        Delivered (system cfg profile) s' l' t e b ∧ Same t l' l := by
  let T : ServiceTask := ⟨.recover "", .perform e fun _ => .done (.error .cancelled), []⟩
  obtain ⟨i, rfl, -, rfl⟩ | ⟨i, rfl, -, rfl⟩ := h.answer
  · let s' : ServiceState := ⟨s.world.world (worker t), some t, fun _ => some T⟩
    refine ⟨s', _, _, rfl, rfl, .enter (i := i) ⟨T, rfl, rfl⟩ rfl, fun j => ⟨?_, nofun⟩⟩
    rintro ⟨⟩
    rfl
  · let s' : ServiceState := ⟨s.world.world (worker t), none, fun _ => some T⟩
    refine ⟨s', _, _, rfl, rfl, .resume (i := i) ⟨T, rfl, rfl⟩ rfl, fun j => ⟨nofun, ?_⟩⟩
    rintro ⟨⟩
    rfl

theorem reply_alone {r : e.Reply}
    (h : Delivered (workers cfg profile worker) s l t e (.reply r c)) :
    ∃ (s' : ServiceState) (l' : ServiceLabel) (w : World),
      s'.world = s.world.world (worker t) ∧ c = s.world.setWorld (worker t) w ∧
        Delivered (system cfg profile) s' l' t e (.reply r w) ∧ Same t l' l := by
  obtain ⟨s', l', b, hs, ha, delivered, same⟩ := delivered_alone h
  obtain ⟨w, rfl, rfl⟩ := Answer.lift_reply ha.symm
  exact ⟨s', l', w, hs, rfl, delivered, same⟩

theorem wait_alone (h : Delivered (workers cfg profile worker) s l t e (.wait c)) :
    ∃ (s' : ServiceState) (l' : ServiceLabel) (w : World),
      s'.world = s.world.world (worker t) ∧ c = s.world.setWorld (worker t) w ∧
        Delivered (system cfg profile) s' l' t e (.wait w) ∧ Same t l' l := by
  obtain ⟨s', l', b, hs, ha, delivered, same⟩ := delivered_alone h
  obtain ⟨w, rfl, rfl⟩ := Answer.lift_wait ha.symm
  exact ⟨s', l', w, hs, rfl, delivered, same⟩

theorem outside_alone {a : ℕ × Outside}
    (h : (workers cfg profile worker).outside a s.world = some c) :
    ∃ w, a.2.apply (s.world.world a.1) = some w ∧ c = s.world.setWorld a.1 w := by
  obtain ⟨w, moved, rfl⟩ := Option.map_eq_some_iff.mp h
  exact ⟨w, moved, rfl⟩

end PySwitch.Workers
