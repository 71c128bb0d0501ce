import PySwitch.Frame

namespace PySwitch.CircuitHistory

open Async

/-- The circuit state in which a task was last granted a permit for a provider. -/
def permitState (t : Tid) (provider : Provider) : List Happening → Option CircuitState
  | [] => none
  | .permitted u p state :: older =>
    if u = t ∧ p = provider then some state else permitState t provider older
  | _ :: older => permitState t provider older

/-- The circuit of a provider has opened since the task was last granted a permit for it. -/
def overtaken (t : Tid) (provider : Provider) : List Happening → Bool
  | [] => false
  | .permitted u p _ :: older =>
    if u = t ∧ p = provider then false else overtaken t provider older
  | .transition _ p _ current :: older =>
    if p = provider ∧ current = .opened then true else overtaken t provider older
  | _ :: older => overtaken t provider older

variable {t u : Tid} {p q : Provider} {log : List Happening}

theorem permitState_other {h : Happening} (hh : h.ofCircuit = false) :
    permitState t p (h :: log) = permitState t p log := by
  cases h <;> first | rfl | cases hh

theorem overtaken_other {h : Happening} (hh : h.ofCircuit = false) :
    overtaken t p (h :: log) = overtaken t p log := by
  cases h <;> first | rfl | cases hh

theorem permitState_self (state : CircuitState) :
    permitState t p (.permitted t p state :: log) = some state := by
  simp [permitState]

theorem overtaken_self (state : CircuitState) :
    overtaken t p (.permitted t p state :: log) = false := by
  simp [overtaken]

theorem permitState_permitted (h : ¬ (u = t ∧ q = p)) (state : CircuitState) :
    permitState t p (.permitted u q state :: log) = permitState t p log := by
  simp only [permitState, if_neg h]

theorem overtaken_permitted (h : ¬ (u = t ∧ q = p)) (state : CircuitState) :
    overtaken t p (.permitted u q state :: log) = overtaken t p log := by
  simp only [overtaken, if_neg h]

/-- What one operation of a circuit can do to its state. -/
inductive Moved : CircuitState → CircuitState → Prop
  | stays {state : CircuitState} : Moved state state
  | opens {state : CircuitState} : Moved state .opened
  | probes : Moved .opened .halfOpen
  | closes {state : CircuitState} : Moved state .closed

theorem moved_allowRequest (c : CircuitBreaker) (now : Seconds) :
    Moved c.state (c.allowRequest now).2.state := by
  cases hg : (c.allowRequest now).1 with
  | false => rw [(CircuitBreaker.allowRequest_refused hg).1]; exact .stays
  | true =>
    obtain ⟨-, he⟩ | ⟨hs, -, he⟩ | ⟨-, -, he⟩ := CircuitBreaker.allowRequest_granted hg
    · rw [he]; exact .stays
    · rw [he, hs]; exact .probes
    · rw [he]; exact .stays

theorem moved_recordFailure (c : CircuitBreaker) (now : Seconds) :
    Moved c.state (c.recordFailure now).state := by
  unfold CircuitBreaker.recordFailure
  dsimp only
  split
  · exact .opens
  · exact .stays

section MoveCircuit

variable (w : World) (c : CircuitBreaker)

theorem moveCircuit_circuit :
    (w.moveCircuit t p c).process.circuits = Function.update w.process.circuits p c := by
  simp only [World.moveCircuit]
  split <;> rfl

theorem moveCircuit_log : (w.moveCircuit t p c).log = w.log ∧ c.state = (w.circuit p).state ∨
    (w.moveCircuit t p c).log = .transition t p (w.circuit p).state c.state :: w.log ∧
      c.state ≠ (w.circuit p).state := by
  simp only [World.moveCircuit]
  split
  · rename_i h
    exact .inl ⟨rfl, h.symm⟩
  · rename_i h
    exact .inr ⟨rfl, fun h' => h h'.symm⟩

theorem circuit_moveCircuit (q : Provider) :
    (w.moveCircuit t p c).circuit q = if q = p then c else w.circuit q := by
  rw [World.circuit, moveCircuit_circuit, Function.update_apply]
  rfl

theorem permitState_moveCircuit :
    permitState u q (w.moveCircuit t p c).log = permitState u q w.log := by
  obtain ⟨h, -⟩ | ⟨h, -⟩ := moveCircuit_log (t := t) (p := p) w c
  · rw [h]
  · rw [h]; rfl

theorem overtaken_moveCircuit :
    overtaken u q (w.moveCircuit t p c).log = false ↔ overtaken u q w.log = false ∧
      ¬ (p = q ∧ c.state = .opened ∧ c.state ≠ (w.circuit p).state) := by
  obtain ⟨h, hs⟩ | ⟨h, hs⟩ := moveCircuit_log (t := t) (p := p) w c
  · simp [h, hs]
  · rw [h, overtaken]
    split
    · rename_i hq
      exact iff_of_false (by simp) fun h => h.2 ⟨hq.1, hq.2, hs⟩
    · rename_i hq
      simp only [hs, ne_eq, not_false_eq_true, and_true, iff_self_and]
      exact fun _ => hq

end MoveCircuit

/-- How a permit that a task holds stands to the circuit as it is now. -/
structure Standing (w : World) (t : Tid) (p : Provider) (state : CircuitState) : Prop where
  granted : permitState t p w.log = some state
  ready : state ≠ .opened
  valid : overtaken t p w.log = false →
    (w.circuit p).state ≠ .opened ∧ (state = .closed → (w.circuit p).state = .closed)

namespace Standing

variable {w w' : World} {state : CircuitState}

theorem congr (h : Standing w t p state) (hc : w'.process.circuits = w.process.circuits)
    (hl : w'.log = w.log) : Standing w' t p state := by
  have hp : w'.circuit p = w.circuit p := congrFun hc p
  exact ⟨hl ▸ h.granted, h.ready, by rw [hl, hp]; exact h.valid⟩

theorem note (h : Standing w t p state) {x : Happening} (hx : x.ofCircuit = false) :
    Standing (w.note x) t p state where
  granted := (permitState_other hx).trans h.granted
  ready := h.ready
  valid := fun ho => h.valid ((overtaken_other hx).symm.trans ho)

theorem note_permitted (h : Standing w t p state) {current : CircuitState} (hu : u ≠ t) :
    Standing (w.note (.permitted u q current)) t p state where
  granted := (permitState_permitted (fun hh => hu hh.1) _).trans h.granted
  ready := h.ready
  valid := fun ho => h.valid ((overtaken_permitted (fun hh => hu hh.1) _).symm.trans ho)

theorem moveCircuit (h : Standing w t p state) {c : CircuitBreaker}
    (hm : Moved (w.circuit q).state c.state) : Standing (w.moveCircuit u q c) t p state where
  granted := (permitState_moveCircuit w c).trans h.granted
  ready := h.ready
  valid := fun ho => by
    obtain ⟨ho, hopen⟩ := (overtaken_moveCircuit w c).mp ho
    obtain ⟨hnot, hclosed⟩ := h.valid ho
    rw [circuit_moveCircuit]
    split
    · rename_i hp
      subst p
      generalize hs : (w.circuit q).state = before at *
      generalize c.state = after at *
      cases hm with
      | stays => exact ⟨hnot, hclosed⟩
      | opens => exact absurd ⟨rfl, rfl, fun h => hnot h.symm⟩ hopen
      | probes => exact absurd rfl hnot
      | closes => exact ⟨by simp, fun _ => rfl⟩
    · exact ⟨hnot, hclosed⟩

end Standing

/-- A permit is in good standing when it has just been granted. -/
theorem standing_granted {w : World} {now : Seconds} (t : Tid)
    (h : ((w.circuit p).allowRequest now).1 = true) :
    Standing ((w.moveCircuit t p ((w.circuit p).allowRequest now).2).note
      (.permitted t p ((w.circuit p).allowRequest now).2.state)) t p
      ((w.circuit p).allowRequest now).2.state := by
  have ready : ((w.circuit p).allowRequest now).2.state ≠ .opened := by
    obtain ⟨hs, he⟩ | ⟨-, -, he⟩ | ⟨hs, -, he⟩ := CircuitBreaker.allowRequest_granted h
    · simp [he, hs]
    · simp [he]
    · simp [he, hs]
  have hcircuit (x : Happening) (c : CircuitBreaker) :
      ((w.moveCircuit t p c).note x).circuit p = c := by
    exact (circuit_moveCircuit w c p).trans (if_pos rfl)
  exact {
    granted := permitState_self _
    ready := ready
    valid := fun _ => by
      rw [hcircuit]
      exact ⟨ready, id⟩ }

end PySwitch.CircuitHistory
