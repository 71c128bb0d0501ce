import PySwitch.Answers

namespace PySwitch

open Async

/-- Several processes of the service, and what they share. -/
structure Cluster where
  processes : ℕ → Process
  shared : Shared

namespace Cluster

/-- The world in which a worker finds itself. -/
def world (c : Cluster) (worker : ℕ) : World := ⟨c.processes worker, c.shared⟩

def setWorld (c : Cluster) (worker : ℕ) (w : World) : Cluster :=
  ⟨Function.update c.processes worker w.process, w.shared⟩

@[simp] theorem setWorld_shared (c : Cluster) (worker : ℕ) (w : World) :
    (c.setWorld worker w).shared = w.shared := rfl

@[simp] theorem setWorld_self (c : Cluster) (worker : ℕ) (w : World) :
    (c.setWorld worker w).processes worker = w.process := by
  simp [setWorld]

theorem setWorld_other (c : Cluster) {worker other : ℕ} (w : World) (h : other ≠ worker) :
    (c.setWorld worker w).processes other = c.processes other := by
  simp [setWorld, h]

end Cluster

theorem answered_alone (cfg : Config) {profile : Profile} {t : Tid} {e : Effect} {i : Input}
    {w : World} {a : Answer e.Reply World}
    (h : Effect.enter profile t e i w = a ∨ Effect.resume profile t e i w = a) :
    ∃ s l, s.world = w ∧ Delivered (system cfg profile) s l t e a := by
  let T : ServiceTask := ⟨.recover "", .perform e fun _ => .done (.error .cancelled), []⟩
  obtain rfl | rfl := h
  · let s : ServiceState := ⟨w, some t, fun _ => some T⟩
    exact ⟨s, _, rfl, .enter (i := i) ⟨T, rfl, rfl⟩ rfl⟩
  · let s : ServiceState := ⟨w, none, fun _ => some T⟩
    exact ⟨s, _, rfl, .resume (i := i) ⟨T, rfl, rfl⟩ rfl⟩

end PySwitch
