import BetSettlement.LineProvider.Atomic
import BetSettlement.LineProvider.Coefficients
import BetSettlement.LineProvider.Selectors

/-!
# Line-provider's routes

A route validates the body, awaits the interactor and turns what that raises into a status. What it raises
beside that is answered with 500.
-/

namespace BetSettlement
open Python

def EventState.value : EventState → String
  | .new => "NEW"
  | .finishedWin => "FINISHED_WIN"
  | .finishedLose => "FINISHED_LOSE"

namespace LineProvider
open Machine

inductive Body where
  | event (read : EventRead)
  | events (reads : List EventRead)
  | detail (text : String)
  | validationErrors
  | plain (text : String)
  deriving DecidableEq

structure Answer where
  statusCode : Nat
  content : Body
  deriving DecidableEq

def internalServerError : Answer := ⟨500, .plain "Internal Server Error"⟩

def notFound : Answer := ⟨404, .detail "Not Found"⟩

/-- A request whose path and body have fields of the right types. -/
inductive Request where
  | postEvent (eventId : UUID) (coefficient : Decimal) (deadline : Instant)
  | putEvent (eventId : UUID) (requestId : Option String) (coefficient : Decimal) (deadline : Instant)
      (state : EventState)

def Request.coefficient : Request → Decimal
  | .postEvent _ coefficient _ => coefficient
  | .putEvent _ _ coefficient _ _ => coefficient

def Request.eventId : Request → UUID
  | .postEvent eventId _ _ => eventId
  | .putEvent eventId _ _ _ _ => eventId

/-- What a route has when its interactor ends. -/
def Task.result : Task → Option (Except Raised Event)
  | .returned event => some (.ok event)
  | .raised error => some (.error error)
  | _ => none

section
variable [Pydantic]

/-- The call that the route awaits, once its body has passed validation. -/
def Request.begin (now : Instant) : Request → Except Answer Call
  | .postEvent eventId coefficient deadline =>
    match EventCreate.modelValidate eventId coefficient deadline now with
    | none => .error ⟨422, .validationErrors⟩
    | some body => .ok (.createEvent body)
  | .putEvent eventId requestId coefficient deadline state =>
    match EventUpdate.modelValidate coefficient deadline state with
    | none => .error ⟨422, .validationErrors⟩
    | some body => .ok (.setEventState
        { eventId, coefficient := body.coefficient, deadline := body.deadline, newState := body.state,
          correlationId := requestId.getD "no-request-id" })

def respond (statusCode : Nat) (event : Event) : Answer :=
  match EventRead.modelValidate event with
  | none => internalServerError
  | some read => ⟨statusCode, .event read⟩

def postEvent : Except Raised Event → Answer
  | .ok event => respond 201 event
  | .error (.eventAlreadyExists eventId) => ⟨409, .detail ("event " ++ uuidText eventId ++ " already exists")⟩
  | .error _ => internalServerError

def putEvent : Except Raised Event → Answer
  | .ok event => respond 200 event
  | .error (.eventNotFound _) => notFound
  | .error (.transitionForbidden current target) =>
    ⟨422, .detail ("state transition " ++ current.value ++ "->" ++ target.value ++ " not allowed")⟩
  | .error _ => internalServerError

def Request.answer : Request → Except Raised Event → Answer
  | .postEvent _ _ _ => LineProvider.postEvent
  | .putEvent _ _ _ _ _ => LineProvider.putEvent

/-- `GET /event/{event_id}`. -/
def getEventById (s : State) (eventId : UUID) : Answer :=
  match s.data.lookup eventId with
  | none => notFound
  | some event => respond 200 event

/-- `GET /events`, which fails on the first event that it cannot answer with. -/
def listEvents (s : State) (now : Instant) : Answer :=
  match (listActiveEvents s now).mapM EventRead.modelValidate with
  | none => internalServerError
  | some reads => ⟨200, .events reads⟩

/-! ### What a validated coefficient does to the models after it -/

theorem field_inside {value quantized : Decimal} (h : coefficientField value = some quantized)
    (inside : RoundsInside value) : coefficientField quantized = some quantized := by
  have kept := ((revalidates_iff h).mpr inside).event 0 0 .new
  obtain ⟨again, field, same⟩ := Option.map_eq_some_iff.mp kept
  rw [field, (Event.mk.inj same).2.1]

theorem field_outside {value quantized : Decimal} (h : coefficientField value = some quantized)
    (outside : ¬ RoundsInside value) : coefficientField quantized = none := by
  rw [← digits_bounds h, ← quantized_admitted h] at outside
  simp [coefficientField, outside]

theorem admitted_iff {value quantized : Decimal} (h : coefficientField value = some quantized) :
    coefficientAdmitted quantized = true ↔ RoundsInside value :=
  (quantized_admitted h).trans (digits_bounds h)

theorem respond_inside {value quantized : Decimal} (h : coefficientField value = some quantized)
    (inside : RoundsInside value) (statusCode : Nat) (eventId : UUID) (deadline : Instant) (state : EventState) :
    respond statusCode ⟨eventId, quantized, deadline, state⟩ =
      ⟨statusCode, .event ⟨eventId, quantized, deadline, state⟩⟩ := by
  simp [respond, EventRead.modelValidate, field_inside h inside]

theorem respond_outside {value quantized : Decimal} (h : coefficientField value = some quantized)
    (outside : ¬ RoundsInside value) (statusCode : Nat) (eventId : UUID) (deadline : Instant) (state : EventState) :
    respond statusCode ⟨eventId, quantized, deadline, state⟩ = internalServerError := by
  simp [respond, EventRead.modelValidate, field_outside h outside]

/-! ### One request -/

/-- What an answer tells about the `store` that the request met. `raises` says that its `publish` raised. -/
inductive Answers (store : Store) (raises : Prop) : Request → Answer → Prop
  | created {eventId value deadline} (absent : store eventId = none) (inside : RoundsInside value) :
      Answers store raises (.postEvent eventId value deadline)
        ⟨201, .event ⟨eventId, value.rescale .halfUp (-2), deadline, .new⟩⟩
  | conflict {eventId value deadline stored} (present : store eventId = some stored) (inside : RoundsInside value) :
      Answers store raises (.postEvent eventId value deadline)
        ⟨409, .detail ("event " ++ uuidText eventId ++ " already exists")⟩
  | unbuilt {eventId value deadline} (outside : ¬ RoundsInside value) :
      Answers store raises (.postEvent eventId value deadline) internalServerError
  | missing {eventId requestId value deadline state} (absent : store eventId = none) :
      Answers store raises (.putEvent eventId requestId value deadline state) notFound
  | forbidden {eventId requestId value deadline state stored} (found : store eventId = some stored)
      (refused : isTransitionAllowed stored.state state = false) :
      Answers store raises (.putEvent eventId requestId value deadline state)
        ⟨422, .detail ("state transition " ++ stored.state.value ++ "->" ++ state.value ++ " not allowed")⟩
  | updated {eventId requestId value deadline state stored} (found : store eventId = some stored)
      (allowed : isTransitionAllowed stored.state state = true) (inside : RoundsInside value) :
      Answers store raises (.putEvent eventId requestId value deadline state)
        ⟨200, .event ⟨eventId, value.rescale .halfUp (-2), deadline, state⟩⟩
  | unread {eventId requestId value deadline state stored} (found : store eventId = some stored)
      (allowed : isTransitionAllowed stored.state state = true) (outside : ¬ RoundsInside value) :
      Answers store raises (.putEvent eventId requestId value deadline state) internalServerError
  | unpublished {eventId requestId value deadline state stored} (found : store eventId = some stored)
      (undecided : stored.state = .new) (decided : state ≠ .new) (raised : raises) :
      Answers store raises (.putEvent eventId requestId value deadline state) internalServerError

omit [Pydantic] in
theorem answered_result {reply : Reply} {task : Task} {result : Except Raised Event} (answered : Answered reply task)
    (ended : task.result = some result) :
    result = reply.result ∨ result = .error .publishFailed ∧ task = .raised .publishFailed ∧ reply.announced ≠ [] := by
  cases task with
  | returned event =>
    obtain rfl := Option.some.inj ended
    exact Or.inl (Eq.symm answered)
  | raised error =>
    obtain rfl := Option.some.inj ended
    cases error with
    | publishFailed => exact Or.inr ⟨rfl, rfl, answered.2⟩
    | _ => exact Or.inl (Eq.symm answered)
  | _ => cases ended

theorem begin_post {eventId : UUID} {value : Decimal} {deadline now : Instant} {call : Call}
    (h : (Request.postEvent eventId value deadline).begin now = .ok call) : ∃ quantized,
      coefficientField value = some quantized ∧ call = .createEvent ⟨eventId, quantized, deadline⟩ ∧
        EventCreate.modelValidate eventId value deadline now = some ⟨eventId, quantized, deadline⟩ := by
  simp only [Request.begin] at h
  split at h
  · cases h
  · rename_i body valid
    obtain rfl := Except.ok.inj h
    have fields := valid
    unfold EventCreate.modelValidate at fields
    split at fields
    · cases fields
    · obtain ⟨quantized, field, rfl⟩ := Option.map_eq_some_iff.mp fields
      exact ⟨quantized, field, rfl, valid⟩

theorem begin_put {eventId : UUID} {requestId : Option String} {value : Decimal} {deadline now : Instant}
    {state : EventState} {call : Call}
    (h : (Request.putEvent eventId requestId value deadline state).begin now = .ok call) : ∃ quantized,
      coefficientField value = some quantized ∧
        call = .setEventState ⟨eventId, quantized, deadline, state, requestId.getD "no-request-id"⟩ := by
  simp only [Request.begin, EventUpdate.modelValidate] at h
  split at h
  · cases h
  · rename_i body valid
    obtain ⟨quantized, field, rfl⟩ := Option.map_eq_some_iff.mp valid
    exact ⟨quantized, field, (Except.ok.inj h).symm⟩

theorem conclude_result (change : StateChange) (event : Event) (previous : EventState) :
    (conclude change event previous).result = .ok event ∨
      (conclude change event previous).result = .error .validationError ∧
        ¬ coefficientAdmitted event.coefficient = true := by
  unfold conclude
  split
  · exact Or.inl rfl
  · split
    · split
      · exact Or.inl rfl
      · rename_i refused
        exact Or.inr ⟨rfl, refused⟩
    · exact Or.inl rfl

theorem conclude_announced {change : StateChange} {event : Event} {previous : EventState}
    (loud : (conclude change event previous).announced ≠ []) : previous = .new ∧ change.newState ≠ .new := by
  unfold conclude at loud
  split at loud
  · exact absurd rfl loud
  · rename_i terminal decided
    split at loud
    · rename_i undecided
      refine ⟨undecided, fun same => ?_⟩
      rw [EventState.terminal_none.mpr same] at decided
      cases decided
    · exact absurd rfl loud

def Store.Keyed (store : Store) : Prop := ∀ id event, store id = some event → event.eventId = id

theorem post_answers {store : Store} {eventId : UUID} {value : Decimal} {deadline now : Instant} {call : Call}
    {task : Task} {result : Except Raised Event} {raises : Prop}
    (begins : (Request.postEvent eventId value deadline).begin now = .ok call)
    (answered : Answered (apply store call).2 task) (ended : task.result = some result) :
    Answers store raises (.postEvent eventId value deadline)
      ((Request.postEvent eventId value deadline).answer result) := by
  obtain ⟨quantized, field, rfl, -⟩ := begin_post begins
  obtain ⟨-, rounded, -⟩ := coefficientField_ok field
  have silent : (apply store (.createEvent ⟨eventId, quantized, deadline⟩)).2.announced = [] := by
    simp only [apply]
    split
    · rfl
    · split <;> rfl
  rcases answered_result answered ended with rfl | ⟨-, -, loud⟩
  · by_cases inside : RoundsInside value
    · simp only [apply, Event.create, field_inside field inside, Option.map_some]
      cases present : store eventId with
      | some stored => exact .conflict present inside
      | none =>
        simp only [Request.answer, postEvent, respond_inside field inside]
        rw [rounded]
        exact .created present inside
    · simp only [apply, Event.create, field_outside field inside, Option.map_none]
      exact .unbuilt inside
  · exact absurd silent loud

theorem put_answers {store : Store} {eventId : UUID} {requestId : Option String} {value : Decimal}
    {deadline now : Instant} {state : EventState} {call : Call} {task : Task} {result : Except Raised Event}
    {raises : Prop} (keyed : store.Keyed)
    (begins : (Request.putEvent eventId requestId value deadline state).begin now = .ok call)
    (answered : Answered (apply store call).2 task) (ended : task.result = some result)
    (failed : task = .raised .publishFailed → raises) :
    Answers store raises (.putEvent eventId requestId value deadline state)
      ((Request.putEvent eventId requestId value deadline state).answer result) := by
  obtain ⟨quantized, field, rfl⟩ := begin_put begins
  obtain ⟨-, rounded, -⟩ := coefficientField_ok field
  cases found : store eventId with
  | none =>
    simp only [apply, found] at answered
    rcases answered_result answered ended with rfl | ⟨-, -, loud⟩
    · exact .missing found
    · exact absurd rfl loud
  | some stored =>
    by_cases allowed : isTransitionAllowed stored.state state = true
    · simp only [apply, found, if_pos allowed] at answered
      have copied : stored.modelCopy ⟨eventId, quantized, deadline, state, requestId.getD "no-request-id"⟩ =
          ⟨eventId, quantized, deadline, state⟩ := by
        simp [Event.modelCopy, keyed eventId stored found]
      rw [copied] at answered
      rcases answered_result answered ended with rfl | ⟨rfl, raised, loud⟩
      · by_cases inside : RoundsInside value
        · rcases conclude_result ⟨eventId, quantized, deadline, state, requestId.getD "no-request-id"⟩
            ⟨eventId, quantized, deadline, state⟩ stored.state with same | ⟨-, refused⟩
          · rw [same]
            simp only [Request.answer, putEvent, respond_inside field inside]
            rw [rounded]
            exact .updated found allowed inside
          · exact absurd ((admitted_iff field).mpr inside) refused
        · rcases conclude_result ⟨eventId, quantized, deadline, state, requestId.getD "no-request-id"⟩
            ⟨eventId, quantized, deadline, state⟩ stored.state with same | ⟨same, -⟩
          · rw [same]
            simp only [Request.answer, putEvent, respond_outside field inside]
            exact .unread found allowed inside
          · rw [same]
            exact .unread found allowed inside
      · obtain ⟨undecided, decided⟩ := conclude_announced loud
        exact .unpublished found undecided decided (failed raised)
    · simp only [apply, found, if_neg allowed] at answered
      rcases answered_result answered ended with rfl | ⟨-, -, loud⟩
      · exact .forbidden found (by simpa using allowed)
      · exact absurd rfl loud

end

end LineProvider
end BetSettlement
