import BetSettlement.LineProvider.Invariant

/-! Line-provider's reads of the store. -/

namespace BetSettlement.LineProvider
open Python

variable [Pydantic]

def State.listAll (s : State) : List Event := s.data.values

def listActiveEvents (s : State) (now : Instant) : List Event :=
  s.listAll.filter fun event => event.state = .new ∧ now < event.deadline

theorem mem_listActiveEvents {s : State} {now : Instant} (inv : Inv s) {eventId : UUID} :
    eventId ∈ (listActiveEvents s now).map Event.eventId ↔
      ∃ event, s.data.lookup eventId = some event ∧ event.state = .new ∧ now < event.deadline := by
  simp only [listActiveEvents, List.mem_map, List.mem_filter, decide_eq_true_eq, State.listAll, Dict.mem_values]
  constructor
  · rintro ⟨event, ⟨⟨key, found⟩, active⟩, rfl⟩
    exact ⟨event, inv.keyed key event found ▸ found, active⟩
  · rintro ⟨event, found, active⟩
    exact ⟨event, ⟨⟨eventId, found⟩, active⟩, inv.keyed eventId event found⟩

/-- The store is keyed by the ids of its events, so none is listed twice. -/
theorem listActiveEvents_nodup {s : State} (inv : Inv s) (now : Instant) :
    ((listActiveEvents s now).map Event.eventId).Nodup :=
  (Dict.values_nodup inv.keyed).sublist (List.filter_sublist.map _)

end BetSettlement.LineProvider
