import BetSettlement.LineProvider.Lifecycle
import Mathlib.Tactic.FinCases

/-! Who publishes: the call that finished the event, once. -/

namespace BetSettlement.LineProvider
open Python Machine

/-- The PUT a task is still working on. -/
def Task.change : Task → Option StateChange
  | .ready (.setEventState change) | .acquiring (.update change) | .waiting (.update change)
  | .holding (.update change) | .updated change _ _ => some change
  | _ => none

/-- Past the store write of its call. -/
def Task.committed : Task → Prop
  | .updated _ _ _ | .publishing _ | .returned _ | .raised .validationError | .raised .publishFailed => True
  | _ => False

section
variable [Pydantic]

/-- How the one task that a step moves continues. -/
structure Follows (action : Action) (t : TaskId) (before after : Task) : Prop where
  change : ∀ change, after.change = some change →
    before.change = some change ∨ action = .spawn t (.setEventState change)
  committed : before.committed → after.committed

theorem start_follows (s : State) (t : TaskId) (call : Call) (action : Action) :
    ∃ task, (start s t call).tasks = Function.update s.tasks t task ∧ Follows action t (.ready call) task := by
  cases call with
  | createEvent body =>
    simp only [start]
    split <;> exact ⟨_, rfl, by simp [Task.change], by simp [Task.committed]⟩
  | setEventState change =>
    simp only [start]
    split
    · exact ⟨_, rfl, by simp [Task.change], by simp [Task.committed]⟩
    · split <;> exact ⟨_, rfl, by simp [Task.change], by simp [Task.committed]⟩

theorem acquire_follows (s : State) (t : TaskId) (body : Section) (action : Action) :
    ∃ task, (acquire s t body).tasks = Function.update s.tasks t task ∧ Follows action t (.acquiring body) task := by
  unfold acquire
  split <;> cases body <;> exact ⟨_, rfl, by simp [Task.change], by simp [Task.committed]⟩

theorem runSection_follows (s : State) (t : TaskId) (body : Section) (action : Action) :
    ∃ task, (runSection s t body).tasks = Function.update s.tasks t task ∧ Follows action t (.holding body) task := by
  cases body with
  | add event =>
    simp only [runSection]
    split <;> exact ⟨_, rfl, by simp [Task.change], by simp [Task.committed]⟩
  | update change =>
    simp only [runSection]
    split <;> exact ⟨_, rfl, by simp [Task.change], by simp [Task.committed]⟩

theorem afterUpdate_follows (s : State) (t : TaskId) (now : Instant) (change : StateChange) (event : Event)
    (previous : EventState) (action : Action) :
    ∃ task, (afterUpdate s t now change event previous).tasks = Function.update s.tasks t task ∧
      Follows action t (.updated change event previous) task := by
  unfold afterUpdate
  split
  · split
    · split <;> exact ⟨_, rfl, by simp [Task.change], fun _ => trivial⟩
    · exact ⟨_, rfl, by simp [Task.change], fun _ => trivial⟩
  · exact ⟨_, rfl, by simp [Task.change], fun _ => trivial⟩

/-- The calls that are not the current one stay where they are. -/
theorem advance_moves {s s' : State} {t : TaskId} {now : Instant} (h : advance s t now = some s') :
    ∃ task, s'.tasks = Function.update s.tasks t task := by
  unfold advance at h
  split at h
  · obtain rfl := Option.some.inj h
    obtain ⟨task, moved, -⟩ := start_follows s t _ (.advance now)
    exact ⟨task, moved⟩
  · obtain rfl := Option.some.inj h
    obtain ⟨task, moved, -⟩ := acquire_follows s t _ (.advance now)
    exact ⟨task, moved⟩
  · obtain rfl := Option.some.inj h
    obtain ⟨task, moved, -⟩ := runSection_follows s t _ (.advance now)
    exact ⟨task, moved⟩
  · obtain rfl := Option.some.inj h
    obtain ⟨task, moved, -⟩ := afterUpdate_follows s t now _ _ _ (.advance now)
    exact ⟨task, moved⟩
  · cases h

theorem schedule_follows {s s' : State} {action : Action} (h : schedule s action = some s') :
    ∃ t task, s'.tasks = Function.update s.tasks t task ∧ Follows action t (s.tasks t) task := by
  cases action with
  | spawn t call =>
    simp only [schedule] at h
    split at h
    · rename_i absent
      obtain rfl := Option.some.inj h
      refine ⟨t, .ready call, rfl, ?_, by simp [absent, Task.committed]⟩
      cases call <;> simp [Task.change]
    · cases h
  | resume t =>
    simp only [schedule] at h
    split at h
    · rename_i call ready
      obtain rfl := Option.some.inj h
      exact ⟨t, s.tasks t, (Function.update_eq_self t s.tasks).symm, fun _ => Or.inl, id⟩
    · rename_i body waiting
      split at h
      · obtain rfl := Option.some.inj h
        refine ⟨t, .holding body, rfl, ?_, by simp [waiting, Task.committed]⟩
        cases body <;> simp [waiting, Task.change]
      · cases h
    · cases h
  | publishReturns t | publishRaises t =>
    simp only [schedule] at h
    split at h
    · obtain rfl := Option.some.inj h
      exact ⟨t, _, rfl, by simp [Task.change], fun _ => trivial⟩
    · cases h
  | advance now => cases h

theorem step_follows {s s' : State} {action : Action} (next : step s action = some s') :
    ∃ t task, s'.tasks = Function.update s.tasks t task ∧ Follows action t (s.tasks t) task := by
  rcases step_ok next with ⟨t, now, -, -, moved⟩ | ⟨-, moved⟩
  · unfold advance at moved
    split at moved
    · rename_i call place
      obtain rfl := Option.some.inj moved
      exact ⟨t, place ▸ start_follows s t call action⟩
    · rename_i body place
      obtain rfl := Option.some.inj moved
      exact ⟨t, place ▸ acquire_follows s t body action⟩
    · rename_i body place
      obtain rfl := Option.some.inj moved
      exact ⟨t, place ▸ runSection_follows s t body action⟩
    · rename_i change event previous place
      obtain rfl := Option.some.inj moved
      exact ⟨t, place ▸ afterUpdate_follows s t now change event previous action⟩
    · cases moved
  · exact schedule_follows moved

theorem committed_step {s s' : State} {action : Action} {t : TaskId} (next : step s action = some s')
    (committed : (s.tasks t).committed) : (s'.tasks t).committed := by
  obtain ⟨u, task, tasks, follows⟩ := step_follows next
  rw [tasks]
  by_cases same : t = u
  · subst same
    rw [Function.update_self]
    exact follows.committed committed
  · rwa [Function.update_of_ne same]

/-- The calls whose coefficient the message accepts. -/
def Action.Priced : Action → Prop
  | .spawn _ (.setEventState change) => coefficientAdmitted change.coefficient = true
  | _ => True

/-- The message of every PUT in progress can be built. -/
def Priced (s : State) : Prop :=
  ∀ t change, (s.tasks t).change = some change → coefficientAdmitted change.coefficient = true

theorem init_priced : Priced init := by
  intro t change working
  cases working

theorem priced_step {s s' : State} {action : Action} (accepted : action.Priced) (priced : Priced s)
    (next : step s action = some s') : Priced s' := by
  obtain ⟨u, task, tasks, follows⟩ := step_follows next
  intro t change working
  rw [tasks] at working
  by_cases same : t = u
  · subst same
    rw [Function.update_self] at working
    rcases follows.change change working with before | spawned
    · exact priced t change before
    · rw [spawned] at accepted
      exact accepted
  · rw [Function.update_of_ne same] at working
    exact priced t change working

def State.publishedFor (s : State) (id : UUID) : List Publication :=
  s.published.filter fun p => p.message.eventId = id

theorem publishedFor_append {s s' : State} {p : Publication} (appended : s'.published = s.published ++ [p])
    (id : UUID) :
    s'.publishedFor id = s.publishedFor id ++ if p.message.eventId = id then [p] else [] := by
  simp [State.publishedFor, appended, List.filter_append, List.filter_singleton]

/-- Between the write that finished an event and the end of its publication. -/
def Finishing (t : TaskId) (change : StateChange) (s : State) : Prop :=
  s.current = some t ∧ ∃ event, s.tasks t = .updated change event .new

/-- The publication that the call of task `t` owes for `change`. -/
def Published (t : TaskId) (change : StateChange) (s : State) : Prop :=
  ∃ p, s.publishedFor change.eventId = [p] ∧ p.task = t ∧
    p.message.newState.toEventState = change.newState ∧ p.message.coefficient = change.coefficient ∧
    p.routingKey = terminalToRouting p.message.newState

theorem advance_of_current {s s' : State} {action : Action} {t : TaskId} (current : s.current = some t)
    (next : step s action = some s') : ∃ now, action = .advance now ∧ advance s t now = some s' := by
  rcases step_ok next with ⟨u, now, held, same, moved⟩ | ⟨idle, -⟩
  · obtain rfl := Option.some.inj (current.symm.trans held)
    exact ⟨now, same, moved⟩
  · rw [current] at idle
    cases idle

theorem finishing_step {s s' : State} {action : Action} {t : TaskId} {change : StateChange} (h : Inv s)
    (priced : Priced s) (decided : change.newState ≠ .new) (finishing : Finishing t change s)
    (next : step s action = some s') : Published t change s' := by
  obtain ⟨current, event, updated⟩ := finishing
  obtain ⟨now, -, moved⟩ := advance_of_current current next
  obtain ⟨-, -, key, price, -, -, silent⟩ : s.lock.locked = false ∧ Wrote s change event .new := by
    simpa [updated, Focus] using h.focus t current
  have admitted : coefficientAdmitted event.coefficient = true :=
    price ▸ priced t change (by rw [updated]; rfl)
  obtain ⟨terminal, state⟩ := EventState.terminal_of_ne_new decided
  have reached := EventState.terminal_iff.mpr state
  simp only [advance, updated, afterUpdate, reached, if_true, EventFinishedMessage.create, admitted,
    dite_true] at moved
  obtain ⟨p, appended, mine, about, state, paid, routing⟩ :
      ∃ p, s'.published = s.published ++ [p] ∧ p.task = t ∧ p.message.eventId = change.eventId ∧
        p.message.newState.toEventState = change.newState ∧ p.message.coefficient = change.coefficient ∧
        p.routingKey = terminalToRouting p.message.newState := by
    obtain rfl := Option.some.inj moved
    exact ⟨_, rfl, rfl, key, state.symm, price, rfl⟩
  have before : s.publishedFor change.eventId = [] :=
    List.filter_eq_nil_iff.mpr fun p member => by simpa using silent rfl p member
  have only := publishedFor_append appended change.eventId
  rw [before, if_pos about, List.nil_append] at only
  exact ⟨p, only, mine, state, paid, routing⟩

theorem published_step {s s' : State} {action : Action} {t : TaskId} {change : StateChange} (h : Inv s)
    (published : Published t change s) (next : step s action = some s') : Published t change s' := by
  obtain ⟨p, only, rest⟩ := published
  refine ⟨p, ?_, rest⟩
  cases step_effect h next with
  | quiet _ same | added _ _ _ _ _ _ same | updated _ _ _ _ _ _ _ _ same =>
    rw [← only, State.publishedFor, same, State.publishedFor]
  | published u other event terminal message current updated _ about _ _ _ appended =>
    -- a second publication would follow a second write that found the event NEW
    obtain ⟨-, -, key, -, -, -, silent⟩ : s.lock.locked = false ∧ Wrote s other event .new := by
      simpa [updated, Focus] using h.focus u current
    have different : message.eventId ≠ change.eventId := by
      intro same
      have member : p ∈ s.publishedFor change.eventId := by simp [only]
      obtain ⟨earlier, mine⟩ := List.mem_filter.mp member
      exact silent rfl p earlier ((of_decide_eq_true mine).trans (same.symm.trans (about.trans key)))
    rw [publishedFor_append appended, only, if_neg different, List.append_nil]

/-- The call that an action runs or schedules. -/
def actor (s : State) : Action → Option TaskId
  | .spawn t _ | .resume t | .publishReturns t | .publishRaises t => some t
  | .advance _ => s.current

theorem committed_of_change {s s' : State} {action : Action} {t : TaskId} (h : Inv s)
    (next : step s action = some s') (mine : actor s action = some t)
    (changed : ¬ (s'.data = s.data ∧ s'.published = s.published)) : (s'.tasks t).committed := by
  have self : ∀ u, s.current = some u → u = t := by
    intro u current
    obtain ⟨now, same, -⟩ := advance_of_current current next
    rw [same, actor, current] at mine
    exact Option.some.inj mine
  cases step_effect h next with
  | quiet data published => exact absurd ⟨data, published⟩ changed
  | added u event current _ _ _ _ done | updated u _ _ current _ _ _ _ _ _ done
  | published u _ _ _ _ current _ _ _ _ _ _ _ done =>
    rw [← self u current, done]
    trivial

/-- The step in which task `t` finishes an event that was NEW. -/
structure Switch (before after : State) (id : UUID) (t : TaskId) (terminal : EventTerminalState)
    (coefficient : Decimal) : Prop where
  running : before.current = some t
  undecided : ∃ event, before.data.lookup id = some event ∧ event.state = .new
  decided : ∃ event, after.data.lookup id = some event ∧ event.state = terminal.toEventState ∧
    event.coefficient = coefficient

/-- The first write of a terminal state is one PUT's, and its task is about to publish. -/
theorem finished_by {s : State} {actions : List Action} {id : UUID} {event : Event}
    (reached : run step init actions = some s) (found : s.data.lookup id = some event)
    (decided : event.state ≠ .new) :
    ∃ front action back before after t change terminal, actions = front ++ action :: back ∧
      run step init front = some before ∧ step before action = some after ∧
      run step after back = some s ∧ change.eventId = id ∧
      change.newState = EventTerminalState.toEventState terminal ∧
      Switch before after id t terminal change.coefficient ∧ Finishing t change after := by
  have start : ∀ event, (init : State).data.lookup id = some event → event.state = .new := by
    intro event found
    simp [init] at found
  obtain ⟨front, action, back, before, after, rfl, prior, undecided, next, switched, rest⟩ :=
    run_switches (P := fun s => ∀ event, s.data.lookup id = some event → event.state = .new) start
      (fun all => decided (all event found)) reached
  have invariant := run_inv prior
  simp only [not_forall] at switched
  obtain ⟨written, present, finished⟩ := switched
  cases step_effect invariant next with
  | quiet data | published _ _ _ _ _ _ _ _ _ _ _ data =>
    rw [data] at present
    exact absurd (undecided written present) finished
  | added t fresh _ new _ data =>
    rw [data, Dict.lookup_setItem] at present
    split at present
    · exact absurd (Option.some.inj present ▸ new) finished
    · exact absurd (undecided written present) finished
  | updated t change old current holding stored allowed data _ kept done =>
    rw [data, Dict.lookup_setItem] at present
    split at present
    · rename_i same
      obtain rfl := Option.some.inj present
      have new := undecided old (by rw [same, stored])
      obtain ⟨terminal, state⟩ := EventState.terminal_of_ne_new finished
      refine ⟨front, action, back, before, after, t, change, terminal, rfl, prior, next, rest, same.symm, state,
        ⟨current, ⟨old, by rw [same, stored], new⟩, ?_⟩, kept, _, new ▸ done⟩
      exact ⟨old.modelCopy change, by simp [data, same], state, rfl⟩
    · exact absurd (undecided written present) finished

theorem published_of_finishing {s s' : State} {actions : List Action} {t : TaskId} {change : StateChange}
    (h : Inv s) (priced : Priced s) (accepted : ∀ action ∈ actions, action.Priced)
    (decided : change.newState ≠ .new) (finishing : Finishing t change s)
    (reached : run step s actions = some s') (idle : s'.current = none) : Published t change s' := by
  have owed : Inv s' ∧ Priced s' ∧ (Finishing t change s' ∨ Published t change s') := by
    refine run_invariant_of (P := fun s => Inv s ∧ Priced s ∧ (Finishing t change s ∨ Published t change s))
      ?_ accepted ⟨h, priced, Or.inl finishing⟩ reached
    intro s action s' allowed before next
    obtain ⟨invariant, priced, place⟩ := before
    refine ⟨step_inv invariant next, priced_step allowed priced next, Or.inr ?_⟩
    rcases place with working | done
    · exact finishing_step invariant priced decided working next
    · exact published_step invariant done next
  rcases owed.2.2 with working | done
  · exact absurd (idle.symm.trans working.1) (by simp)
  · exact done

def Raised.Refusal : Raised → Prop
  | .eventAlreadyExists _ | .eventNotFound _ | .transitionForbidden _ _ => True
  | _ => False

/-- What every schedule guarantees about the store and the publications. -/
structure StateMachine (actions : List Action) (s : State) : Prop where
  shape : ∀ id, ∃ n m, ∃ terminal : EventTerminalState, history id init actions =
    List.replicate n .new ++ List.replicate m terminal.toEventState
  kept : ∀ front back before id, actions = front ++ back → run step init front = some before →
    id ∈ before.data → id ∈ s.data
  keyed : ∀ id event, s.data.lookup id = some event → event.eventId = id
  once : s.current = none → ∀ id event terminal, s.data.lookup id = some event →
    event.state = EventTerminalState.toEventState terminal →
    ∃ front action back before after t p, actions = front ++ action :: back ∧
      run step init front = some before ∧ step before action = some after ∧
      Switch before after id t terminal p.message.coefficient ∧ s.publishedFor id = [p] ∧ p.task = t ∧
      p.message.newState = terminal ∧ p.routingKey = terminalToRouting terminal
  only : ∀ p ∈ s.published, ∃ event, s.data.lookup p.message.eventId = some event ∧
    event.state = p.message.newState.toEventState
  refused : ∀ front action back before after t error, actions = front ++ action :: back →
    run step init front = some before → step before action = some after → actor before action = some t →
    s.tasks t = .raised error → error.Refusal → after.data = before.data ∧ after.published = before.published

theorem event_state_machine {actions : List Action} {s : State} (accepted : ∀ action ∈ actions, action.Priced)
    (reached : run step init actions = some s) : StateMachine actions s where
  shape id := history_shape init_inv reached (by intro event found; simp [init] at found)
  kept front back before id split prior stored := by
    subst split
    obtain ⟨middle, first, last⟩ := run_append.mp reached
    obtain rfl := Option.some.inj (prior.symm.trans first)
    exact run_keeps_stored (run_inv prior) last stored
  keyed := (run_inv reached).keyed
  once idle id event terminal found state := by
    have finished : event.state ≠ .new := by
      rw [state]
      exact terminal.toEventState_ne_new
    obtain ⟨front, action, back, before, after, t, change, target, rfl, prior, next, rest, rfl, decided,
      switched, finishing⟩ := finished_by reached found finished
    have undecided : change.newState ≠ .new := by
      rw [decided]
      exact target.toEventState_ne_new
    have priced : Priced before := run_invariant_of (fun s action s' => priced_step)
      (fun action member => accepted action (List.mem_append_left _ member)) init_priced prior
    have ready : Priced after := priced_step (accepted action (by simp)) priced next
    obtain ⟨p, only, mine, about, paid, routing⟩ :=
      published_of_finishing (step_inv (run_inv prior) next) ready
        (fun action member => accepted action (by simp [member])) undecided finishing rest idle
    obtain ⟨member, key⟩ := List.mem_filter.mp (show p ∈ s.publishedFor change.eventId by simp [only])
    obtain ⟨stored, present, agrees, -⟩ := (run_inv reached).recorded p member
    rw [of_decide_eq_true key, found] at present
    obtain rfl := Option.some.inj present
    -- the message, the switch and the stored event name one terminal state
    have final := EventTerminalState.toEventState_injective (agrees.symm.trans state)
    have same := EventTerminalState.toEventState_injective (about.trans decided)
    obtain rfl := final.symm.trans same
    exact ⟨front, action, back, before, after, t, p, rfl, prior, next, paid ▸ switched, only, mine, final,
      final ▸ routing⟩
  only p member := by
    obtain ⟨event, found, state, -⟩ := (run_inv reached).recorded p member
    exact ⟨event, found, state⟩
  refused front action back before after t error split prior next mine ended refusal := by
    subst split
    obtain ⟨middle, first, rest⟩ := run_append.mp reached
    obtain rfl := Option.some.inj (prior.symm.trans first)
    obtain ⟨middle, second, last⟩ := run_cons.mp rest
    obtain rfl := Option.some.inj (next.symm.trans second)
    by_contra changed
    have committed := committed_of_change (run_inv prior) next mine changed
    have final : (s.tasks t).committed :=
      run_invariant (P := fun s => (s.tasks t).committed) (fun _ _ _ before next => committed_step next before)
        committed last
    rw [ended] at final
    cases error <;> first | exact final | exact refusal

end

/-- A second PUT comes while the first one publishes, and is refused. -/
def overlappingPuts : List Action :=
  [.spawn 0 (.createEvent ⟨1, ⟨false, 150, -2⟩, 90⟩), .resume 0, .advance 10, .advance 10, .advance 10,
   .spawn 1 (.setEventState ⟨1, ⟨false, 175, -2⟩, 90, .finishedWin, "r"⟩),
   .spawn 2 (.setEventState ⟨1, ⟨false, 180, -2⟩, 90, .finishedLose, "q"⟩), .resume 1, .advance 20, .advance 20,
   .advance 20, .advance 20, .resume 2, .advance 30, .publishReturns 1]

theorem event_state_machine_finishOne : ∃ s, run step init overlappingPuts = some s ∧ StateMachine overlappingPuts s ∧
    s.data.lookup 1 = some ⟨1, ⟨false, 175, -2⟩, 90, .finishedWin⟩ ∧
    s.published.map (fun p => (p.task, p.message.newState, p.routingKey)) = [(1, .finishedWin, .eventFinishedWin)] ∧
    s.tasks 2 = .raised (.transitionForbidden .finishedWin .finishedLose) := by
  obtain ⟨s, reached⟩ := Option.isSome_iff_exists.mp
    (show (run step init overlappingPuts).isSome = true by decide)
  have ended : (run step init overlappingPuts).map (fun s => (s.data.lookup 1,
      s.published.map (fun p => (p.task, p.message.newState, p.routingKey)))) =
      some (some ⟨1, ⟨false, 175, -2⟩, 90, .finishedWin⟩, [(1, .finishedWin, .eventFinishedWin)]) := by decide
  have refused : (run step init overlappingPuts).map (fun s => s.tasks 2) =
      some (.raised (.transitionForbidden .finishedWin .finishedLose)) := rfl
  rw [reached] at ended refused
  simp only [Option.map_some, Option.some.injEq, Prod.mk.injEq] at ended refused
  refine ⟨s, reached, event_state_machine ?_ reached, ended.1, ended.2, refused⟩
  intro action member
  fin_cases member <;> trivial

end BetSettlement.LineProvider
