import BetSettlement.LineProvider.Tasks

/-! The store's lock is never contended, so the state that a PUT checked is the state it overwrites. -/

namespace BetSettlement.LineProvider
open Python

/-- Tasks that are not between two steps of one interactor. -/
def Task.outside : Task → Prop
  | .absent | .ready _ | .publishing _ | .returned _ | .raised _ => True
  | _ => False

theorem transition_allowed {current target : EventState} (h : isTransitionAllowed current target = true) :
    current = target ∨ current = .new := by
  cases current <;> cases target <;> simp_all [isTransitionAllowed, allowedTransitions]

variable [Pydantic]

/-- What a section may rely on when its task enters it. -/
def Section.Valid (s : State) : Section → Prop
  | .add event => event.state = .new
  | .update change => ∃ current, s.data.lookup change.eventId = some current ∧
      isTransitionAllowed current.state change.newState = true

/-- What holds between the write of `update` and the interactor's next step. -/
def Wrote (s : State) (change : StateChange) (event : Event) (previous : EventState) : Prop :=
  s.data.lookup change.eventId = some event ∧ event.eventId = change.eventId ∧
    event.coefficient = change.coefficient ∧ event.state = change.newState ∧
    isTransitionAllowed previous change.newState = true ∧
    (previous = .new → ∀ p ∈ s.published, p.message.eventId ≠ change.eventId)

/-- Where the task that has control may stand. -/
def Focus (s : State) : Task → Prop
  | .ready _ => s.lock.locked = false
  | .acquiring body => s.lock.locked = false ∧ body.Valid s
  | .holding body => body.Valid s
  | .updated change event previous => s.lock.locked = false ∧ Wrote s change event previous
  | _ => False

structure Inv (s : State) : Prop where
  keyed : ∀ id event, s.data.lookup id = some event → event.eventId = id
  uncontended : s.lock.waiters = []
  outside : ∀ t, s.current ≠ some t → (s.tasks t).outside
  idle : s.current = none → s.lock.locked = false
  focus : ∀ t, s.current = some t → Focus s (s.tasks t)
  recorded : ∀ p ∈ s.published, ∃ event, s.data.lookup p.message.eventId = some event ∧
    event.state = p.message.newState.toEventState ∧ p.routingKey = terminalToRouting p.message.newState

theorem init_inv : Inv init where
  keyed id event found := by simp [init] at found
  uncontended := rfl
  outside _ _ := trivial
  idle _ := rfl
  focus t held := by cases held
  recorded p member := by cases member

section frame
variable {s : State} {t : TaskId} {task : Task}

@[simp] theorem setTask_data : (s.setTask t task).data = s.data := rfl
@[simp] theorem setTask_lock : (s.setTask t task).lock = s.lock := rfl
@[simp] theorem setTask_current : (s.setTask t task).current = s.current := rfl
@[simp] theorem setTask_published : (s.setTask t task).published = s.published := rfl
@[simp] theorem setTask_same : (s.setTask t task).tasks t = task := by simp [State.setTask]
@[simp] theorem leave_data : (s.leave t task).data = s.data := rfl
@[simp] theorem leave_lock : (s.leave t task).lock = s.lock := rfl
@[simp] theorem leave_current : (s.leave t task).current = none := rfl
@[simp] theorem leave_published : (s.leave t task).published = s.published := rfl
@[simp] theorem leave_same : (s.leave t task).tasks t = task := setTask_same
@[simp] theorem release_data : s.release.data = s.data := rfl
@[simp] theorem release_tasks : s.release.tasks = s.tasks := rfl
theorem setTask_other {other : TaskId} (different : other ≠ t) :
    (s.setTask t task).tasks other = s.tasks other := by
  simp [State.setTask, different]

end frame

/-- Giving up control with a finished or suspended task keeps the invariant. -/
theorem leave_inv {s : State} {t : TaskId} {task : Task} (h : Inv s) (only : ∀ u, u ≠ t → s.current ≠ some u)
    (unlocked : s.lock.locked = false) (out : task.outside) : Inv (s.leave t task) where
  keyed := h.keyed
  uncontended := h.uncontended
  outside u _ := by
    by_cases same : u = t
    · subst same
      rw [leave_same]
      exact out
    · exact (congrArg Task.outside (setTask_other same)).mpr (h.outside u (only u same))
  idle _ := unlocked
  focus u held := by cases held
  recorded := h.recorded

/-- Moving the current task on keeps the invariant when the new place is justified. -/
theorem move_inv {s : State} {t : TaskId} {task : Task} (h : Inv s) (current : s.current = some t)
    (focus : Focus (s.setTask t task) task) : Inv (s.setTask t task) where
  keyed := h.keyed
  uncontended := h.uncontended
  outside u other := by
    have different : u ≠ t := fun same => other (same ▸ current)
    rw [setTask_other different]
    exact h.outside u other
  idle none := by rw [setTask_current, current] at none; cases none
  focus u held := by
    rw [setTask_current, current] at held
    obtain rfl := Option.some.inj held
    rwa [setTask_same]
  recorded := h.recorded

theorem start_inv {s : State} {t : TaskId} {call : Call} (h : Inv s) (current : s.current = some t)
    (ready : s.tasks t = .ready call) : Inv (start s t call) := by
  have unlocked : s.lock.locked = false := by simpa [ready, Focus] using h.focus t current
  have only : ∀ u, u ≠ t → s.current ≠ some u := fun u different same =>
    different (Option.some.inj (same.symm.trans current))
  cases call with
  | createEvent body =>
    simp only [start]
    cases built : Event.create body.eventId body.coefficient body.deadline .new with
    | none => exact leave_inv h only unlocked trivial
    | some event =>
      have fresh : event.state = .new := by
        obtain ⟨coefficient, -, rfl⟩ := Option.map_eq_some_iff.mp built
        rfl
      exact move_inv h current ⟨unlocked, fresh⟩
  | setEventState change =>
    simp only [start]
    cases found : s.data.lookup change.eventId with
    | none => exact leave_inv h only unlocked trivial
    | some old =>
      dsimp only
      split
      · rename_i allowed
        exact move_inv h current ⟨unlocked, old, found, allowed⟩
      · exact leave_inv h only unlocked trivial

theorem acquire_inv {s : State} {t : TaskId} {body : Section} (h : Inv s) (current : s.current = some t)
    (acquiring : s.tasks t = .acquiring body) : Inv (acquire s t body) := by
  obtain ⟨unlocked, valid⟩ : s.lock.locked = false ∧ body.Valid s := by
    simpa [acquiring, Focus] using h.focus t current
  -- with no waiter and no holder the lock is always free here
  have free : s.lock.free = true := by simp [Lock.free, unlocked, h.uncontended]
  have moved : Inv (s.setTask t (.holding body)) := move_inv h current (by cases body <;> exact valid)
  rw [acquire, if_pos free]
  exact {
    keyed := moved.keyed
    uncontended := moved.uncontended
    outside := moved.outside
    idle := fun none => by rw [setTask_current, current] at none; cases none
    focus := fun u held => by
      rw [setTask_current, current] at held
      obtain rfl := Option.some.inj held
      rw [setTask_same]
      cases body <;> exact valid
    recorded := moved.recorded }

theorem release_inv {s : State} {t : TaskId} {body : Section} (h : Inv s) (current : s.current = some t)
    (holding : s.tasks t = .holding body) : Inv s.release where
  keyed := h.keyed
  uncontended := h.uncontended
  outside := h.outside
  idle _ := rfl
  focus u held := by
    obtain rfl : t = u := Option.some.inj (current.symm.trans held)
    have valid := h.focus t current
    rw [holding] at valid
    rw [release_tasks, holding]
    cases body <;> exact valid
  recorded := h.recorded

/-- Writing one event keeps the invariant if the event agrees with what was published for it. -/
theorem store_inv {s : State} {event : Event} (h : Inv s)
    (agree : ∀ p ∈ s.published, p.message.eventId = event.eventId →
      event.state = p.message.newState.toEventState)
    (focus : ∀ t, s.current = some t →
      Focus { s with data := s.data.setItem event.eventId event } (s.tasks t)) :
    Inv { s with data := s.data.setItem event.eventId event } where
  keyed id found present := by
    rw [Dict.lookup_setItem] at present
    split at present
    · rename_i same
      rw [← Option.some.inj present, same]
    · exact h.keyed id found present
  uncontended := h.uncontended
  outside := h.outside
  idle := h.idle
  focus := focus
  recorded p member := by
    obtain ⟨old, found, state, key⟩ := h.recorded p member
    by_cases same : p.message.eventId = event.eventId
    · exact ⟨event, by simp [same], agree p member same, key⟩
    · exact ⟨old, by simp [same, found], state, key⟩

/-- A transition that the check let through cannot change what was published. -/
theorem modelCopy_agrees {s : State} {change : StateChange} {old : Event} (h : Inv s)
    (found : s.data.lookup change.eventId = some old)
    (allowed : isTransitionAllowed old.state change.newState = true) :
    ∀ p ∈ s.published, p.message.eventId = change.eventId →
      change.newState = p.message.newState.toEventState ∧ old.state ≠ .new := by
  intro p member same
  obtain ⟨event, present, state, -⟩ := h.recorded p member
  rw [same, found] at present
  obtain rfl := Option.some.inj present
  have decided : old.state ≠ .new := by
    rw [state]
    exact p.message.newState.toEventState_ne_new
  rcases transition_allowed allowed with kept | fresh
  · exact ⟨kept ▸ state, decided⟩
  · exact absurd fresh decided

theorem runSection_inv {s : State} {t : TaskId} {body : Section} (h : Inv s)
    (current : s.current = some t) (holding : s.tasks t = .holding body) : Inv (runSection s t body) := by
  have valid : body.Valid s := by simpa [holding, Focus] using h.focus t current
  have released := release_inv h current holding
  have only : ∀ u, u ≠ t → s.release.current ≠ some u := fun u different same =>
    different (Option.some.inj (same.symm.trans current))
  cases body with
  | add event =>
    have left : ∀ task : Task, task.outside → Inv (s.release.leave t task) :=
      fun _ out => leave_inv released only rfl out
    simp only [runSection]
    split
    · exact left _ trivial
    · rename_i absent
      apply store_inv (left (.returned event) trivial)
      · intro p member same
        obtain ⟨old, found, -⟩ := h.recorded p member
        rw [same] at found
        exact absurd (AList.lookup_isSome.mp (Option.isSome_of_eq_some found)) absent
      · intro u held
        cases held
  | update change =>
    obtain ⟨old, found, allowed⟩ := valid
    have keyed := h.keyed _ _ found
    have agree := modelCopy_agrees h found allowed
    simp only [runSection, found]
    -- first the write, with the task still in its section, then the step out of it
    have stored := @store_inv _ _ (old.modelCopy change) released
      (fun p member same => (agree p member (same.trans keyed)).1) (by
        intro u held
        obtain rfl : t = u := Option.some.inj (current.symm.trans held)
        rw [release_tasks, holding]
        exact ⟨old.modelCopy change, by simp [Event.modelCopy, keyed], by simp [Event.modelCopy, isTransitionAllowed]⟩)
    have place : (old.modelCopy change).eventId = change.eventId := keyed
    rw [place] at stored
    refine move_inv stored current ⟨rfl, by simp, keyed, rfl, rfl, allowed, ?_⟩
    intro fresh p member same
    exact (agree p member same).2 fresh

theorem afterUpdate_inv {s : State} {t : TaskId} {now : Instant} {change : StateChange} {event : Event}
    {previous : EventState} (h : Inv s) (current : s.current = some t)
    (updated : s.tasks t = .updated change event previous) :
    Inv (afterUpdate s t now change event previous) := by
  obtain ⟨unlocked, found, key, price, state, -⟩ : s.lock.locked = false ∧ Wrote s change event previous := by
    simpa [updated, Focus] using h.focus t current
  have left : ∀ task : Task, task.outside → Inv (s.leave t task) := by
    intro task out
    apply leave_inv h _ unlocked out
    intro u different same
    exact different (Option.some.inj (same.symm.trans current))
  unfold afterUpdate
  split
  · rename_i terminal decided
    split
    · split
      · exact left _ trivial
      · rename_i message built
        have recorded := (left (.publishing event) trivial).recorded
        refine { left (.publishing event) trivial with recorded := ?_, focus := fun u held => by cases held }
        intro p member
        rcases List.mem_append.mp member with old | fresh
        · exact recorded p old
        · obtain rfl := List.mem_singleton.mp fresh
          unfold EventFinishedMessage.create at built
          split at built
          · obtain rfl := Option.some.inj built
            refine ⟨event, ?_, state.trans (EventState.terminal_iff.mp decided), rfl⟩
            rw [leave_data, key]
            exact found
          · cases built
    · exact left _ trivial
  · exact left _ trivial

theorem advance_inv {s s' : State} {t : TaskId} {now : Instant} (h : Inv s) (current : s.current = some t)
    (step : advance s t now = some s') : Inv s' := by
  unfold advance at step
  split at step
  · rename_i call ready
    obtain rfl := Option.some.inj step
    exact start_inv h current ready
  · rename_i body acquiring
    obtain rfl := Option.some.inj step
    exact acquire_inv h current acquiring
  · rename_i body holding
    obtain rfl := Option.some.inj step
    exact runSection_inv h current holding
  · rename_i change event previous updated
    obtain rfl := Option.some.inj step
    exact afterUpdate_inv h current updated
  · cases step

theorem setTask_inv {s : State} {t : TaskId} {task : Task} (h : Inv s) (idle : s.current = none)
    (out : task.outside) : Inv (s.setTask t task) where
  keyed := h.keyed
  uncontended := h.uncontended
  outside u _ := by
    by_cases same : u = t
    · subst same
      rw [setTask_same]
      exact out
    · rw [setTask_other same]
      exact h.outside u (by rw [idle]; exact fun held => by cases held)
  idle := h.idle
  focus u held := by rw [setTask_current, idle] at held; cases held
  recorded := h.recorded

theorem schedule_inv {s s' : State} {action : Action} (h : Inv s) (idle : s.current = none)
    (step : schedule s action = some s') : Inv s' := by
  cases action with
  | spawn t call =>
    simp only [schedule] at step
    split at step
    · obtain rfl := Option.some.inj step
      exact setTask_inv h idle trivial
    · cases step
  | resume t =>
    simp only [schedule] at step
    split at step
    · rename_i call ready
      obtain rfl := Option.some.inj step
      refine { h with outside := ?_, idle := ?_, focus := ?_ }
      · intro u _
        exact h.outside u (by rw [idle]; exact fun held => by cases held)
      · intro none
        cases none
      · intro u held
        obtain rfl := Option.some.inj held
        rw [ready]
        exact h.idle idle
    · rename_i body waiting
      have out := h.outside t (by rw [idle]; exact fun held => by cases held)
      rw [waiting] at out
      exact out.elim
    · cases step
  | publishReturns t =>
    simp only [schedule] at step
    split at step
    · obtain rfl := Option.some.inj step
      exact setTask_inv h idle trivial
    · cases step
  | publishRaises t =>
    simp only [schedule] at step
    split at step
    · obtain rfl := Option.some.inj step
      exact setTask_inv h idle trivial
    · cases step
  | advance now => cases step

theorem step_ok {s s' : State} {action : Action} (h : step s action = some s') :
    (∃ t now, s.current = some t ∧ action = .advance now ∧ advance s t now = some s') ∨
      (s.current = none ∧ schedule s action = some s') := by
  unfold step at h
  split at h
  · rename_i t now current
    exact Or.inl ⟨t, now, current, rfl, h⟩
  · rename_i idle
    exact Or.inr ⟨idle, h⟩
  · cases h

theorem step_inv {s s' : State} {action : Action} (h : Inv s) (next : step s action = some s') : Inv s' := by
  rcases step_ok next with ⟨t, now, current, -, moved⟩ | ⟨idle, moved⟩
  · exact advance_inv h current moved
  · exact schedule_inv h idle moved

theorem run_inv {s : State} {actions : List Action} (h : Machine.run step init actions = some s) : Inv s :=
  Machine.run_invariant (fun _ _ _ => step_inv) init_inv h

end BetSettlement.LineProvider
