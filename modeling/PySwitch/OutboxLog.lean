import PySwitch.DeliveryOrder
import PySwitch.Store

namespace PySwitch.OutboxLog

open DeliveryOrder

def ids (events : List EventEnvelope) : List Uuid := events.map EventEnvelope.id

theorem ids_append (a b : List EventEnvelope) : ids (a ++ b) = ids a ++ ids b := List.map_append ..

theorem putEvent_ids (events : List EventEnvelope) (event : EventEnvelope) :
    ids (InMemoryPaymentStore.putEvent events event) =
      if event.id ∈ ids events then ids events else ids events ++ [event.id] := by
  unfold InMemoryPaymentStore.putEvent
  by_cases known : event.id ∈ ids events
  · obtain ⟨other, hm, same⟩ := List.mem_map.mp known
    have found : events.any (fun other => other.id = event.id) = true :=
      List.any_eq_true.mpr ⟨other, hm, by simp [same]⟩
    rw [if_pos found, if_pos known, ids, List.map_map]
    apply List.map_congr_left
    intro other _
    by_cases same : other.id = event.id <;> simp [same]
  · have found : ¬ events.any (fun other => other.id = event.id) = true := by
      intro h
      obtain ⟨other, hm, same⟩ := List.any_eq_true.mp h
      exact known (List.mem_map.mpr ⟨other, hm, by simpa using same⟩)
    rw [if_neg found, if_neg known]
    simp [ids]

theorem mem_putEvent {events : List EventEnvelope} {event other : EventEnvelope}
    (h : other ∈ InMemoryPaymentStore.putEvent events event) : other = event ∨ other ∈ events := by
  unfold InMemoryPaymentStore.putEvent at h
  split at h
  · obtain ⟨e, he, rfl⟩ := List.mem_map.mp h
    split
    · exact .inl rfl
    · exact .inr he
  · obtain h | h := List.mem_append.mp h
    · exact .inr h
    · exact .inl (List.mem_singleton.mp h)

/-- The outbox keeps the order in which identifiers were appended first. -/
structure Logs (events appended : List EventEnvelope) : Prop where
  order : ids events = (ids appended).eraseDups
  known : ∀ e ∈ events, e ∈ appended

theorem Logs.put {events appended : List EventEnvelope} (h : Logs events appended)
    (event : EventEnvelope) :
    Logs (InMemoryPaymentStore.putEvent events event) (appended ++ [event]) where
  order := by
    have split : ids (appended ++ [event]) = ids appended ++ [event.id] := ids_append ..
    rw [putEvent_ids, split, eraseDups_concat, h.order]
    simp only [List.mem_eraseDups]
  known := fun e he => by
    obtain rfl | he := mem_putEvent he
    · simp
    · exact List.mem_append_left _ (h.known e he)

theorem Logs.append {s : InMemoryPaymentStore} {appended : List EventEnvelope}
    (h : Logs s.events appended)
    (events : List EventEnvelope) : Logs (s.append events).events (appended ++ events) := by
  have fold (events stored appended : List EventEnvelope) (h : Logs stored appended) :
      Logs (events.foldl InMemoryPaymentStore.putEvent stored) (appended ++ events) := by
    induction events generalizing stored appended with
    | nil => simpa using h
    | cons event events ih => simpa using ih _ _ (h.put event)
  exact fold events s.events appended h

/-- Events whose identifiers the outbox does not know yet are added at its end. -/
theorem append_fresh (stored events : List EventEnvelope) (distinct : (ids events).Nodup)
    (fresh : ∀ id ∈ ids events, id ∉ ids stored) :
    events.foldl InMemoryPaymentStore.putEvent stored = stored ++ events := by
  induction events generalizing stored with
  | nil => simp
  | cons event events ih =>
    have new : event.id ∉ ids stored := fresh _ (List.mem_cons_self ..)
    have put : InMemoryPaymentStore.putEvent stored event = stored ++ [event] := by
      unfold InMemoryPaymentStore.putEvent
      rw [if_neg]
      intro h
      obtain ⟨other, hm, same⟩ := List.any_eq_true.mp h
      exact new (List.mem_map.mpr ⟨other, hm, by simpa using same⟩)
    obtain ⟨notMem, distinct⟩ := List.nodup_cons.mp distinct
    rw [List.foldl_cons, put, ih _ distinct, List.append_assoc, List.singleton_append]
    intro id hid
    rw [ids_append, List.mem_append]
    rintro (h | h)
    · exact fresh id (List.mem_cons_of_mem _ hid) h
    · obtain rfl : id = event.id := by simpa [ids] using h
      exact notMem hid

/-- The events of one payment. -/
def eventsOf (id : Uuid) (events : List EventEnvelope) : List EventEnvelope :=
  events.filter fun event => event.aggregateId = some id

end PySwitch.OutboxLog
