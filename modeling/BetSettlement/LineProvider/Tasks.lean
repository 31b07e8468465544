import BetSettlement.LineProvider.Schemas
import BetSettlement.Machine.Runs
import Mathlib.Logic.Function.Basic

/-!
# Line-provider's tasks

One event loop runs every `create_event` and `set_event_state` call. The current task keeps
control until it suspends: at a contended lock, or inside `event_bus.publish`.
-/

namespace BetSettlement.LineProvider
open Python

abbrev TaskId := Nat

/-- `asyncio.Lock`. A waiter that `release` woke leaves the queue when it runs. -/
structure Lock where
  locked : Bool := false
  waiters : List TaskId := []
  deriving DecidableEq

/-- `acquire` returns without suspending. -/
def Lock.free (lock : Lock) : Bool := !lock.locked && lock.waiters.isEmpty

def allowedTransitions : List (EventState × EventState) :=
  [(.new, .finishedWin), (.new, .finishedLose)]

def isTransitionAllowed (current target : EventState) : Bool :=
  if current = target then true else allowedTransitions.contains (current, target)

inductive RoutingKey where
  | eventFinishedWin | eventFinishedLose
  deriving DecidableEq

def terminalToRouting : EventTerminalState → RoutingKey
  | .finishedWin => .eventFinishedWin
  | .finishedLose => .eventFinishedLose

/-- The arguments of one `set_event_state` call. -/
structure StateChange where
  eventId : UUID
  coefficient : Decimal
  deadline : Instant
  newState : EventState
  correlationId : String

inductive Call where
  | createEvent (body : EventCreate)
  | setEventState (change : StateChange)

/-- The bodies of `add` and `update` under the store's lock. -/
inductive Section where
  | add (event : Event)
  | update (change : StateChange)

inductive Raised where
  | validationError
  | eventAlreadyExists (eventId : UUID)
  | eventNotFound (eventId : UUID)
  | transitionForbidden (current target : EventState)
  | publishFailed
  deriving DecidableEq

inductive Task where
  | absent
  | ready (call : Call)
  | acquiring (body : Section)
  | waiting (body : Section)
  | holding (body : Section)
  | updated (change : StateChange) (event : Event) (previous : EventState)
  | publishing (event : Event)
  | returned (event : Event)
  | raised (error : Raised)

variable [Pydantic]

/-- One call of `event_bus.publish`. -/
structure Publication where
  task : TaskId
  message : EventFinishedMessage
  routingKey : RoutingKey
  deriving DecidableEq

structure State where
  data : Dict UUID Event := ∅
  lock : Lock := {}
  tasks : TaskId → Task := fun _ => .absent
  current : Option TaskId := none
  published : List Publication := []

def State.setTask (s : State) (t : TaskId) (task : Task) : State :=
  { s with tasks := Function.update s.tasks t task }

/-- The task ends, or it suspends: the loop takes control back. -/
def State.leave (s : State) (t : TaskId) (task : Task) : State :=
  { s.setTask t task with current := none }

def State.release (s : State) : State := { s with lock := { s.lock with locked := false } }

/-- From the start of an interactor to its first lock. -/
def start (s : State) (t : TaskId) : Call → State
  | .createEvent body =>
    match Event.create body.eventId body.coefficient body.deadline .new with
    | none => s.leave t (.raised .validationError)
    | some event => s.setTask t (.acquiring (.add event))
  | .setEventState change =>
    match s.data.lookup change.eventId with
    | none => s.leave t (.raised (.eventNotFound change.eventId))
    | some current =>
      if isTransitionAllowed current.state change.newState then
        s.setTask t (.acquiring (.update change))
      else s.leave t (.raised (.transitionForbidden current.state change.newState))

def acquire (s : State) (t : TaskId) (body : Section) : State :=
  if s.lock.free then { s.setTask t (.holding body) with lock := { s.lock with locked := true } }
  else { s.leave t (.waiting body) with lock := { s.lock with waiters := s.lock.waiters ++ [t] } }

/-- `current.model_copy(update=...)`, which validates nothing. -/
def Event.modelCopy (current : Event) (change : StateChange) : Event :=
  { current with coefficient := change.coefficient, deadline := change.deadline, state := change.newState }

def runSection (s : State) (t : TaskId) : Section → State
  | .add event =>
    if event.eventId ∈ s.data then s.release.leave t (.raised (.eventAlreadyExists event.eventId))
    else { s.release.leave t (.returned event) with data := s.data.setItem event.eventId event }
  | .update change =>
    match s.data.lookup change.eventId with
    | none => s.release.leave t (.raised (.eventNotFound change.eventId))
    | some current =>
      let event := current.modelCopy change
      { s.release.setTask t (.updated change event current.state) with
        data := s.data.setItem change.eventId event }

/-- From `store.update`'s return to the end of `set_event_state`, or into `publish`. -/
def afterUpdate (s : State) (t : TaskId) (now : Instant) (change : StateChange) (event : Event)
    (previous : EventState) : State :=
  match change.newState.terminal with
  | some terminal =>
    if previous = .new then
      match EventFinishedMessage.create event.eventId terminal event.coefficient now change.correlationId with
      | none => s.leave t (.raised .validationError)
      | some message =>
        { s.leave t (.publishing event) with
          published := s.published ++ [⟨t, message, terminalToRouting terminal⟩] }
    else s.leave t (.returned event)
  | none => s.leave t (.returned event)

/-- The current task up to its next `await` that may suspend. -/
def advance (s : State) (t : TaskId) (now : Instant) : Option State :=
  match s.tasks t with
  | .ready call => some (start s t call)
  | .acquiring body => some (acquire s t body)
  | .holding body => some (runSection s t body)
  | .updated change event previous => some (afterUpdate s t now change event previous)
  | _ => none

/-- What the loop may do while no task has control. -/
inductive Action where
  | spawn (t : TaskId) (call : Call)
  | resume (t : TaskId)
  | publishReturns (t : TaskId)
  | publishRaises (t : TaskId)
  | advance (now : Instant)

def schedule (s : State) : Action → Option State
  | .spawn t call =>
    match s.tasks t with
    | .absent => some (s.setTask t (.ready call))
    | _ => none
  | .resume t =>
    match s.tasks t with
    | .ready _ => some { s with current := some t }
    | .waiting body =>
      if s.lock.locked = false ∧ s.lock.waiters.head? = some t then
        some { s.setTask t (.holding body) with
          current := some t, lock := { locked := true, waiters := s.lock.waiters.tail } }
      else none
    | _ => none
  | .publishReturns t =>
    match s.tasks t with
    | .publishing event => some (s.setTask t (.returned event))
    | _ => none
  | .publishRaises t =>
    match s.tasks t with
    | .publishing _ => some (s.setTask t (.raised .publishFailed))
    | _ => none
  | .advance _ => none

def step (s : State) (action : Action) : Option State :=
  match s.current, action with
  | some t, .advance now => advance s t now
  | none, action => schedule s action
  | some _, _ => none

def init : State := {}

end BetSettlement.LineProvider
