import PySwitch.Machine

namespace PySwitch

open Async

def Happening.ofCircuit : Happening → Bool
  | .permitted _ _ _ => true
  | .transition _ _ _ _ => true
  | _ => false

/-- The happening a provider effect can note. -/
inductive ProviderEffect.Notes : ProviderEffect → Happening → Prop
  | started {t : Tid} {p : Provider} {paymentId : Uuid} {amount : ℤ} {currency token : String} :
    Notes (.startPayment p paymentId amount currency token) (.paymentStarted t p paymentId)
  | ended {t : Tid} {p : Provider} {paymentId : Uuid} {r : Except Exn ProviderPaymentResult} :
    Notes (.finishPayment p paymentId) (.paymentEnded t p paymentId r)
  | refunded {t : Tid} {p : Provider} {paymentId : Uuid} {amount : ℤ}
      {r : Except Exn ProviderPaymentResult} :
    Notes (.finishRefund p paymentId amount) (.refundEnded t p paymentId amount r)

theorem ProviderEffect.Notes.ofCircuit {e : ProviderEffect} {x : Happening} (h : e.Notes x) :
    x.ofCircuit = false := by
  cases h <;> rfl

/-- The part of the world an effect of each kind can change. -/
def Effect.Touches : Effect → World → World → Prop
  | .host e, w, w' => w' = w ∨
      e = .uuid4 ∧ w' = { w with shared.nextUuid := w.shared.nextUuid + 1 }
  | .circuit _, w, w' => ∃ c new, (∀ x ∈ new, Happening.ofCircuit x = true) ∧
      w' = { w with process.circuits := c, shared.log := new ++ w.shared.log }
  | .stats _, w, w' => ∃ stats retries,
      w' = { w with process.stats := stats, process.retriesTotal := retries }
  | .semaphore _, w, w' => ∃ semaphores, w' = { w with process.semaphores := semaphores }
  | .refundLock _, w, w' => ∃ locks, w' = { w with process.refundLocks := locks }
  | .provider e, w, w' => w' = w ∨ ∃ x, e.Notes x ∧ w' = w.note x
  | .coordinator _, w, w' => ∃ c, w' = Effect.setIdempotency w c
  | .redis _, w, w' => ∃ r, w' = Effect.setRedis w r
  | .store _, w, w' => ∃ s, w' = Effect.setStore w s

theorem Effect.Touches.circuits {e : Effect} {w w' : World} (h : e.Touches w w')
    (he : ∀ c, e ≠ .circuit c) : w'.process.circuits = w.process.circuits := by
  cases e with
  | circuit c => exact absurd rfl (he c)
  | host e => obtain rfl | ⟨-, rfl⟩ := h <;> rfl
  | provider e => obtain rfl | ⟨_, _, rfl⟩ := h <;> rfl
  | stats e => obtain ⟨_, _, rfl⟩ := h; rfl
  | _ => obtain ⟨_, rfl⟩ := h; rfl

theorem Effect.Touches.store {e : Effect} {w w' : World} (h : e.Touches w w')
    (he : ∀ a, e ≠ .store a) : w'.store = w.store := by
  cases e with
  | store a => exact absurd rfl (he a)
  | host e => obtain rfl | ⟨-, rfl⟩ := h <;> rfl
  | circuit e => obtain ⟨_, _, _, rfl⟩ := h; rfl
  | provider e => obtain rfl | ⟨_, _, rfl⟩ := h <;> rfl
  | stats e => obtain ⟨_, _, rfl⟩ := h; rfl
  | _ => obtain ⟨_, rfl⟩ := h; rfl

theorem Effect.Touches.nextUuid {e : Effect} {w w' : World} (h : e.Touches w w')
    (he : e ≠ .host .uuid4) : w'.shared.nextUuid = w.shared.nextUuid := by
  cases e with
  | host e =>
    obtain rfl | ⟨rfl, -⟩ := h
    · rfl
    · exact absurd rfl he
  | circuit e => obtain ⟨_, _, _, rfl⟩ := h; rfl
  | provider e => obtain rfl | ⟨_, _, rfl⟩ := h <;> rfl
  | stats e => obtain ⟨_, _, rfl⟩ := h; rfl
  | _ => obtain ⟨_, rfl⟩ := h; rfl

theorem Effect.Touches.stats {e : Effect} {w w' : World} (h : e.Touches w w')
    (he : ∀ a, e ≠ .stats a) : w'.process.stats = w.process.stats := by
  cases e with
  | stats a => exact absurd rfl (he a)
  | host e => obtain rfl | ⟨-, rfl⟩ := h <;> rfl
  | circuit e => obtain ⟨_, _, _, rfl⟩ := h; rfl
  | provider e => obtain rfl | ⟨_, _, rfl⟩ := h <;> rfl
  | _ => obtain ⟨_, rfl⟩ := h; rfl

theorem Effect.Touches.idempotency {e : Effect} {w w' : World} (h : e.Touches w w')
    (he : ∀ a, e ≠ .coordinator a) : w'.process.idempotency = w.process.idempotency := by
  cases e with
  | coordinator a => exact absurd rfl (he a)
  | host e => obtain rfl | ⟨-, rfl⟩ := h <;> rfl
  | circuit e => obtain ⟨_, _, _, rfl⟩ := h; rfl
  | provider e => obtain rfl | ⟨_, _, rfl⟩ := h <;> rfl
  | stats e => obtain ⟨_, _, rfl⟩ := h; rfl
  | _ => obtain ⟨_, rfl⟩ := h; rfl

theorem Effect.Touches.redis {e : Effect} {w w' : World} (h : e.Touches w w')
    (he : ∀ a, e ≠ .redis a) : w'.shared.redis = w.shared.redis := by
  cases e with
  | redis a => exact absurd rfl (he a)
  | host e => obtain rfl | ⟨-, rfl⟩ := h <;> rfl
  | circuit e => obtain ⟨_, _, _, rfl⟩ := h; rfl
  | provider e => obtain rfl | ⟨_, _, rfl⟩ := h <;> rfl
  | stats e => obtain ⟨_, _, rfl⟩ := h; rfl
  | _ => obtain ⟨_, rfl⟩ := h; rfl

theorem Effect.Touches.log {e : Effect} {w w' : World} (h : e.Touches w w')
    (he : ∀ c, e ≠ .circuit c) :
    w'.log = w.log ∨ ∃ x : Happening, x.ofCircuit = false ∧ w'.log = x :: w.log := by
  cases e with
  | circuit c => exact absurd rfl (he c)
  | provider e =>
    obtain rfl | ⟨x, hx, rfl⟩ := h
    · exact .inl rfl
    · exact .inr ⟨x, hx.ofCircuit, rfl⟩
  | host e => obtain rfl | ⟨-, rfl⟩ := h <;> exact .inl rfl
  | stats e => obtain ⟨_, _, rfl⟩ := h; exact .inl rfl
  | _ => obtain ⟨_, rfl⟩ := h; exact .inl rfl

namespace Effect

variable (profile : Profile) (t : Tid)

theorem moveCircuit_touches (w : World) (provider : Provider) (c : CircuitBreaker) :
    ∃ circuits new, (∀ x ∈ new, Happening.ofCircuit x = true) ∧ w.moveCircuit t provider c =
      { w with process.circuits := circuits, shared.log := new ++ w.shared.log } := by
  simp only [World.moveCircuit]
  split
  · exact ⟨_, [], by simp, rfl⟩
  · exact ⟨_, [_], by simp [Happening.ofCircuit], rfl⟩

theorem circuit_touches (e : CircuitEffect) (i : Input) (w : World) :
    (e.enter t i w).Meets (Touches (.circuit e) w) := by
  cases e with
  | allowRequest provider =>
    cases i with
    | «at» now =>
      simp only [CircuitEffect.enter, Answer.Meets, Touches]
      obtain ⟨circuits, new, hn, h⟩ :=
        moveCircuit_touches t w provider ((w.circuit provider).allowRequest now).2
      rw [h]
      split
      · exact ⟨circuits, .permitted t provider _ :: new,
          List.forall_mem_cons.mpr ⟨rfl, hn⟩, rfl⟩
      · exact ⟨circuits, new, hn, rfl⟩
    | _ => trivial
  | recordSuccess provider =>
    cases i with
    | go => exact moveCircuit_touches t w provider _
    | _ => trivial
  | recordFailure provider =>
    cases i with
    | «at» now => exact moveCircuit_touches t w provider _
    | _ => trivial

theorem provider_enter_touches (e : ProviderEffect) (i : Input) (w : World) :
    (e.enter t i w).Meets (Touches (.provider e) w) := by
  cases e with
  | choose healthy =>
    cases healthy with
    | nil => cases i <;> first | trivial | exact .inl rfl
    | cons provider rest =>
      cases i with
      | pick index =>
        simp only [ProviderEffect.enter]
        split
        · exact .inl rfl
        · trivial
      | _ => trivial
  | startPayment => cases i <;> first | trivial | exact .inr ⟨_, .started, rfl⟩
  | _ => cases i <;> first | trivial | exact .inl rfl

theorem provider_resume_touches (e : ProviderEffect) (i : Input) (w : World) :
    (e.resume t i w).Meets (Touches (.provider e) w) := by
  cases e with
  | healthCheck => cases i <;> first | trivial | exact .inl rfl
  | finishPayment => cases i <;> first | trivial | exact .inr ⟨_, .ended, rfl⟩
  | finishRefund => cases i <;> first | trivial | exact .inr ⟨_, .refunded, rfl⟩
  | _ => trivial

theorem queued_touches {β : Type} {w : World} {n : ℕ} (a : Answer β Semaphore) :
    ((a.lift (SemaphoreEffect.put w.process n)).lift (setProcess w)).Meets fun w' =>
      ∃ semaphores, w' = { w with process.semaphores := semaphores } := by
  cases a with
  | reply r s => exact ⟨_, rfl⟩
  | wait s => exact ⟨_, rfl⟩
  | refuse => trivial

theorem locked_touches {β : Type} {w : World} {paymentId : Uuid} (a : Answer β Semaphore) :
    ((a.lift (RefundLockEffect.put w.process paymentId)).lift (setProcess w)).Meets fun w' =>
      ∃ locks, w' = { w with process.refundLocks := locks } := by
  cases a with
  | reply r s => exact ⟨_, rfl⟩
  | wait s => exact ⟨_, rfl⟩
  | refuse => trivial

theorem enter_touches (e : Effect) (i : Input) (w : World) :
    (e.enter profile t i w).Meets (e.Touches w) := by
  cases e with
  | host e => cases e <;> cases i <;> first | trivial | exact .inl rfl | exact .inr ⟨rfl, rfl⟩
  | circuit e => exact circuit_touches t e i w
  | stats e => cases e <;> cases i <;> first | trivial | exact ⟨_, _, rfl⟩
  | semaphore e =>
    cases e with
    | current provider => cases i <;> first | trivial | exact ⟨_, rfl⟩
    | acquire provider semaphore =>
      exact queued_touches _
    | release provider semaphore => cases i <;> first | trivial | exact ⟨_, rfl⟩
  | refundLock e =>
    cases e with
    | acquire paymentId =>
      exact locked_touches _
    | release paymentId => cases i <;> first | trivial | exact ⟨_, rfl⟩
  | provider e => exact provider_enter_touches t e i w
  | coordinator e =>
    simp only [Effect.enter]
    split <;> exact Answer.lift_meets _ fun _ => ⟨_, rfl⟩
  | redis e => exact Answer.lift_meets _ fun _ => ⟨_, rfl⟩
  | store e =>
    simp only [Effect.enter]
    split <;> exact Answer.lift_meets _ fun _ => ⟨_, rfl⟩

theorem resume_touches (e : Effect) (i : Input) (w : World) :
    (e.resume profile t i w).Meets (e.Touches w) := by
  cases e with
  | host e => cases e <;> cases i <;> first | trivial | exact .inl rfl
  | semaphore e =>
    cases e with
    | acquire provider semaphore =>
      exact queued_touches _
    | _ => trivial
  | refundLock e =>
    cases e with
    | acquire paymentId =>
      exact locked_touches _
    | release paymentId => trivial
  | provider e => exact provider_resume_touches t e i w
  | coordinator e =>
    simp only [Effect.resume]
    split <;> exact Answer.lift_meets _ fun _ => ⟨_, rfl⟩
  | redis e => exact Answer.lift_meets _ fun _ => ⟨_, rfl⟩
  | store e =>
    simp only [Effect.resume]
    split
    · trivial
    · exact Answer.lift_meets _ fun _ => ⟨_, rfl⟩
  | _ => trivial

end Effect

section Delivered

variable {cfg : Config} {profile : Profile} {s : ServiceState} {l : ServiceLabel} {t : Tid}
  {e : Effect} {w : World}

theorem delivered_meets {a : Answer e.Reply World}
    (h : Delivered (system cfg profile) s l t e a) : a.Meets (e.Touches s.world) := by
  obtain ⟨i, -, -, rfl⟩ | ⟨i, -, -, rfl⟩ := h.answer
  · exact Effect.enter_touches profile t e i s.world
  · exact Effect.resume_touches profile t e i s.world

theorem reply_touches {r : e.Reply} (h : Delivered (system cfg profile) s l t e (.reply r w)) :
    e.Touches s.world w := delivered_meets h

theorem wait_touches (h : Delivered (system cfg profile) s l t e (.wait w)) :
    e.Touches s.world w := delivered_meets h

end Delivered

/-- What changes the world from outside leaves the store, the records and the log alone. -/
structure OutsideFrame (w w' : World) : Prop where
  store : w'.store = w.store
  nextUuid : w'.shared.nextUuid = w.shared.nextUuid
  log : w'.log = w.log
  circuits : w'.process.circuits = w.process.circuits
  refundLocks : w'.process.refundLocks = w.process.refundLocks
  idempotency : w'.process.idempotency = w.process.idempotency
  stats : w'.process.stats = w.process.stats

theorem outside_frame {a : Outside} {w w' : World} (h : a.apply w = some w') :
    OutsideFrame w w' := by
  cases a with
  | setProviderConcurrency provider limit =>
    cases h
    exact ⟨rfl, rfl, rfl, rfl, rfl, rfl, rfl⟩
  | tick elapsed =>
    obtain ⟨r, -, rfl⟩ := Option.map_eq_some_iff.mp h
    exact ⟨rfl, rfl, rfl, rfl, rfl, rfl, rfl⟩

end PySwitch
