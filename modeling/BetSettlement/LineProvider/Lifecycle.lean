import BetSettlement.LineProvider.Invariant

/-!
# The life of an event in the store

What one step does to the store and to the publications, and from it what every schedule
does: an event is NEW until one PUT finishes it, and that PUT alone publishes it.
-/

namespace BetSettlement.LineProvider
open Python Machine

variable [Pydantic]

/-- Everything a step can do outside the task that takes it. -/
inductive Effect (s s' : State) : Prop where
  | quiet (data : s'.data = s.data) (published : s'.published = s.published)
  | added (t : TaskId) (event : Event) (current : s.current = some t)
      (fresh : event.state = .new) (absent : s.data.lookup event.eventId = none)
      (data : s'.data = s.data.setItem event.eventId event) (published : s'.published = s.published)
      (done : s'.tasks t = .returned event)
  | updated (t : TaskId) (change : StateChange) (old : Event) (current : s.current = some t)
      (holding : s.tasks t = .holding (.update change))
      (found : s.data.lookup change.eventId = some old)
      (allowed : isTransitionAllowed old.state change.newState = true)
      (data : s'.data = s.data.setItem change.eventId (old.modelCopy change))
      (published : s'.published = s.published) (kept : s'.current = some t)
      (done : s'.tasks t = .updated change (old.modelCopy change) old.state)
  | published (t : TaskId) (change : StateChange) (event : Event) (terminal : EventTerminalState)
      (message : EventFinishedMessage) (current : s.current = some t)
      (updated : s.tasks t = .updated change event .new)
      (decided : change.newState = terminal.toEventState)
      (about : message.eventId = event.eventId) (state : message.newState = terminal)
      (price : message.coefficient = event.coefficient) (data : s'.data = s.data)
      (appended : s'.published = s.published ++ [⟨t, message, terminalToRouting terminal⟩])
      (done : s'.tasks t = .publishing event)

theorem create_ok {eventId : UUID} {terminal : EventTerminalState} {coefficient : Decimal} {now : Instant}
    {correlationId : String} {message : EventFinishedMessage}
    (h : EventFinishedMessage.create eventId terminal coefficient now correlationId = some message) :
    message.eventId = eventId ∧ message.newState = terminal ∧ message.coefficient = coefficient := by
  unfold EventFinishedMessage.create at h
  split at h
  · obtain rfl := Option.some.inj h
    exact ⟨rfl, rfl, rfl⟩
  · cases h

theorem schedule_quiet {s s' : State} {action : Action} (h : schedule s action = some s') :
    s'.data = s.data ∧ s'.published = s.published := by
  cases action with
  | spawn t call | publishReturns t | publishRaises t =>
    simp only [schedule] at h
    split at h
    · obtain rfl := Option.some.inj h
      exact ⟨rfl, rfl⟩
    · cases h
  | resume t =>
    simp only [schedule] at h
    split at h
    · obtain rfl := Option.some.inj h
      exact ⟨rfl, rfl⟩
    · split at h
      · obtain rfl := Option.some.inj h
        exact ⟨rfl, rfl⟩
      · cases h
    · cases h
  | advance now => cases h

theorem start_quiet (s : State) (t : TaskId) (call : Call) :
    (start s t call).data = s.data ∧ (start s t call).published = s.published := by
  cases call with
  | createEvent body => simp only [start]; split <;> exact ⟨rfl, rfl⟩
  | setEventState change =>
    simp only [start]
    split
    · exact ⟨rfl, rfl⟩
    · split <;> exact ⟨rfl, rfl⟩

theorem acquire_quiet (s : State) (t : TaskId) (body : Section) :
    (acquire s t body).data = s.data ∧ (acquire s t body).published = s.published := by
  unfold acquire
  split <;> exact ⟨rfl, rfl⟩

theorem step_effect {s s' : State} {action : Action} (h : Inv s) (next : step s action = some s') :
    Effect s s' := by
  rcases step_ok next with ⟨t, now, current, -, moved⟩ | ⟨-, moved⟩
  · have focus := h.focus t current
    unfold advance at moved
    split at moved
    · obtain rfl := Option.some.inj moved
      exact .quiet (start_quiet s t _).1 (start_quiet s t _).2
    · obtain rfl := Option.some.inj moved
      exact .quiet (acquire_quiet s t _).1 (acquire_quiet s t _).2
    · rename_i body holding
      obtain rfl := Option.some.inj moved
      rw [holding] at focus
      cases body with
      | add event =>
        simp only [runSection]
        split
        · exact .quiet rfl rfl
        · rename_i absent
          exact .added t event current focus (AList.lookup_eq_none.mpr absent) rfl rfl leave_same
      | update change =>
        obtain ⟨old, found, allowed⟩ := focus
        simp only [runSection, found]
        exact .updated t change old current holding found allowed rfl rfl current setTask_same
    · rename_i change event previous updated
      obtain rfl := Option.some.inj moved
      unfold afterUpdate
      split
      · rename_i terminal decided
        split
        · rename_i fresh
          subst fresh
          split
          · exact .quiet rfl rfl
          · rename_i message built
            obtain ⟨about, state, price⟩ := create_ok built
            exact .published t change event terminal message current updated
              (EventState.terminal_iff.mp decided) about state price rfl rfl leave_same
        · exact .quiet rfl rfl
      · exact .quiet rfl rfl
    · cases moved
  · obtain ⟨data, published⟩ := schedule_quiet moved
    exact .quiet data published

/-! ### The stored states of one event -/

/-- A stored event stays, and its state moves only along an allowed transition. -/
theorem stored_step {s s' : State} {action : Action} {id : UUID} {event : Event} (h : Inv s)
    (next : step s action = some s') (found : s.data.lookup id = some event) :
    ∃ event', s'.data.lookup id = some event' ∧ isTransitionAllowed event.state event'.state = true := by
  have same : isTransitionAllowed event.state event.state = true := by simp [isTransitionAllowed]
  cases step_effect h next with
  | quiet data | published _ _ _ _ _ _ _ _ _ _ _ data =>
    exact ⟨event, by rw [data, found], same⟩
  | added t fresh _ _ absent data =>
    refine ⟨event, ?_, same⟩
    have different : id ≠ fresh.eventId := by
      intro equal
      rw [equal, absent] at found
      cases found
    simp [data, different, found]
  | updated t change old _ _ present allowed data =>
    rw [data, Dict.lookup_setItem]
    split
    · rename_i equal
      rw [equal, present] at found
      obtain rfl := Option.some.inj found
      exact ⟨_, rfl, allowed⟩
    · exact ⟨event, found, same⟩

/-- The states the store holds for `id`, one after each step that leaves it stored. -/
def history (id : UUID) : State → List Action → List EventState
  | _, [] => []
  | s, action :: rest =>
    match step s action with
    | none => []
    | some s' => ((s'.data.lookup id).map Event.state).toList ++ history id s' rest

theorem history_decided {s s' : State} {actions : List Action} {id : UUID} {event : Event} (h : Inv s)
    (reached : run step s actions = some s') (found : s.data.lookup id = some event)
    (decided : event.state ≠ .new) : ∃ m, history id s actions = List.replicate m event.state := by
  induction actions generalizing s event with
  | nil => exact ⟨0, rfl⟩
  | cons action rest ih =>
    obtain ⟨middle, first, last⟩ := run_cons.mp reached
    obtain ⟨event', found', allowed⟩ := stored_step h first found
    have same : event.state = event'.state := (transition_allowed allowed).resolve_right decided
    obtain ⟨m, tail⟩ := ih (step_inv h first) last found' (same ▸ decided)
    refine ⟨m + 1, ?_⟩
    simp only [history, first, found', tail, same, Option.map_some, Option.toList_some, List.singleton_append,
      List.replicate_succ]

/-- NEW, then at most one switch, then the terminal state for good. -/
theorem history_shape {s s' : State} {actions : List Action} {id : UUID} (h : Inv s)
    (reached : run step s actions = some s')
    (undecided : ∀ event, s.data.lookup id = some event → event.state = .new) :
    ∃ n m, ∃ terminal : EventTerminalState, history id s actions =
      List.replicate n .new ++ List.replicate m terminal.toEventState := by
  induction actions generalizing s with
  | nil => exact ⟨0, 0, .finishedWin, rfl⟩
  | cons action rest ih =>
    obtain ⟨middle, first, last⟩ := run_cons.mp reached
    have invariant := step_inv h first
    cases found : middle.data.lookup id with
    | none =>
      obtain ⟨n, m, terminal, tail⟩ := ih invariant last (by simp [found])
      exact ⟨n, m, terminal, by simp [history, first, found, tail]⟩
    | some event =>
      cases decided : event.state.terminal with
      | none =>
        have new := EventState.terminal_none.mp decided
        obtain ⟨n, m, terminal, tail⟩ := ih invariant last (by simp [found, new])
        refine ⟨n + 1, m, terminal, ?_⟩
        simp [history, first, found, new, tail, List.replicate_succ]
      | some terminal =>
        have state := EventState.terminal_iff.mp decided
        obtain ⟨m, tail⟩ := history_decided invariant last found (by simp [state, terminal.toEventState_ne_new])
        refine ⟨0, m + 1, terminal, ?_⟩
        simp [history, first, found, tail, state, List.replicate_succ]

theorem run_keeps_stored {s s' : State} {actions : List Action} {id : UUID} (h : Inv s)
    (reached : run step s actions = some s') (stored : id ∈ s.data) : id ∈ s'.data := by
  refine (run_invariant (P := fun s => Inv s ∧ id ∈ s.data) ?_ ⟨h, stored⟩ reached).2
  intro s action t before next
  obtain ⟨event, found⟩ := Option.isSome_iff_exists.mp (AList.lookup_isSome.mpr before.2)
  obtain ⟨event', found', -⟩ := stored_step before.1 next found
  exact ⟨step_inv before.1 next, AList.lookup_isSome.mp (Option.isSome_of_eq_some found')⟩

end BetSettlement.LineProvider
