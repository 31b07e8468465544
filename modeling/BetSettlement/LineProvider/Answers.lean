import BetSettlement.LineProvider.Routes
import BetSettlement.Python.Exceptions

/-!
# What the clients of line-provider are told

Whatever requests overlap, each answer tells what the store held at one moment of its request, and what a client
has been told of an event is not taken back.
-/

namespace BetSettlement.LineProvider
open Python Machine

section
variable [Pydantic]

/-! ### Requests that come while others are answered -/

theorem replay_append (store : Store) (first second : List (TaskId × Call)) :
    (replay store (first ++ second)).1 = (replay (replay store first).1 second).1 := by
  induction first generalizing store with
  | nil => rfl
  | cons entry rest ih => simp [replay, ih]

theorem apply_keyed {store : Store} (keyed : store.Keyed) (call : Call) : (apply store call).1.Keyed := by
  have written : ∀ event : Event, Store.Keyed (Function.update store event.eventId (some event)) := by
    intro event id stored found
    rw [Function.update_apply] at found
    split at found
    · rename_i same
      obtain rfl := Option.some.inj found
      exact same.symm
    · exact keyed id stored found
  cases call with
  | createEvent body =>
    simp only [apply]
    split
    · exact keyed
    · rename_i event built
      split
      · exact keyed
      · exact written event
  | setEventState change =>
    simp only [apply]
    split
    · exact keyed
    · rename_i current found
      split
      · have same : (current.modelCopy change).eventId = change.eventId := keyed _ current found
        rw [← same]
        exact written (current.modelCopy change)
      · exact keyed

theorem replay_keyed {store : Store} (keyed : store.Keyed) (log : List (TaskId × Call)) :
    (replay store log).1.Keyed := by
  induction log generalizing store with
  | nil => exact keyed
  | cons entry rest ih => exact ih (apply_keyed keyed entry.2)

/-- The store has an event of this id, whose state can follow `state`. -/
def Store.Continues (store : Store) (eventId : UUID) (state : EventState) : Prop :=
  ∃ event, store eventId = some event ∧ isTransitionAllowed state event.state = true

omit [Pydantic] in
theorem isTransitionAllowed_trans {first second third : EventState} (h : isTransitionAllowed first second = true)
    (h' : isTransitionAllowed second third = true) : isTransitionAllowed first third = true := by
  revert h h'
  cases first <;> cases second <;> cases third <;> decide

omit [Pydantic] in
theorem isTransitionAllowed_refl (state : EventState) : isTransitionAllowed state state = true := by
  simp [isTransitionAllowed]

theorem apply_continues {store : Store} {eventId : UUID} {state : EventState} (h : store.Continues eventId state)
    (call : Call) : Store.Continues (apply store call).1 eventId state := by
  obtain ⟨event, found, follows⟩ := h
  cases call with
  | createEvent body =>
    simp only [apply]
    split
    · exact ⟨event, found, follows⟩
    · rename_i created built
      split
      · exact ⟨event, found, follows⟩
      · rename_i absent
        have other : eventId ≠ created.eventId := by
          rintro rfl
          cases found.symm.trans absent
        exact ⟨event, (Function.update_of_ne other _ _).trans found, follows⟩
  | setEventState change =>
    simp only [apply]
    split
    · exact ⟨event, found, follows⟩
    · rename_i current there
      split
      · rename_i allowed
        by_cases same : eventId = change.eventId
        · subst same
          obtain rfl := Option.some.inj (there.symm.trans found)
          exact ⟨_, Function.update_self .., isTransitionAllowed_trans follows allowed⟩
        · exact ⟨event, (Function.update_of_ne same _ _).trans found, follows⟩
      · exact ⟨event, found, follows⟩

theorem replay_continues {store : Store} {eventId : UUID} {state : EventState} (h : store.Continues eventId state)
    (log : List (TaskId × Call)) : Store.Continues (replay store log).1 eventId state := by
  induction log generalizing store with
  | nil => exact h
  | cons entry rest ih => exact ih (apply_continues h entry.2)

theorem replay_at (store : Store) (front back : List (TaskId × Call)) (t : TaskId) (call : Call) :
    (t, (apply (replay store front).1 call).2) ∈ (replay store (front ++ (t, call) :: back)).2 := by
  induction front generalizing store with
  | nil => exact List.mem_cons_self
  | cons entry rest ih => exact List.mem_cons_of_mem _ (ih (apply store entry.2).1)

theorem consistent_reply {log : List (TaskId × Call)} {s : State} {busy : Option TaskId} {t : TaskId}
    (h : Consistent log s busy) (member : t ∈ log.map Prod.fst) : ∃ front call back,
      log = front ++ (t, call) :: back ∧ Answered (apply (replay .empty front).1 call).2 (s.tasks t) := by
  obtain ⟨⟨u, call⟩, listed, rfl⟩ := List.mem_map.mp member
  obtain ⟨front, back, rfl⟩ := List.append_of_mem listed
  exact ⟨front, call, back, rfl, h.replies _ _ (replay_at .empty front back u call)⟩

/-- A call that has ended got the reply of its place in the order. -/
theorem ended_reply {actions : List Action} {s : State} {t : TaskId} {result : Except Raised Event}
    (reached : run step init actions = some s) (ended : (s.tasks t).result = some result) : ∃ front call back,
      order init actions = front ++ (t, call) :: back ∧ Answered (apply (replay .empty front).1 call).2 (s.tasks t) := by
  have begun : t ∈ (order init actions).map Prod.fst := by
    by_contra outside
    rcases unordered_waiting reached outside with absent | ⟨call, ready⟩
    · rw [absent] at ended
      cases ended
    · rw [ready] at ended
      cases ended
  have linear := run_linear reached
  cases busy : s.current with
  | none => exact consistent_reply ((linear_idle busy).mp linear).1 begun
  | some u =>
    obtain ⟨base, call, same, -, consistent, underway⟩ := (linear_busy busy).mp linear
    have other : t ≠ u := by
      rintro rfl
      generalize s.tasks t = task at ended underway
      cases underway <;> cases ended
    rw [same, List.map_append, List.mem_append] at begun
    have early : t ∈ base.map Prod.fst := begun.resolve_right fun last => other (List.mem_singleton.mp last)
    obtain ⟨front, call', back, rfl, answered⟩ := consistent_reply consistent early
    exact ⟨front, call', back ++ [(u, call)], by rw [same]; simp, answered⟩

/-- The routes pass on the calls of their requests. -/
def Action.Requested (requests : TaskId → Request) : Action → Prop
  | .spawn t call => ∃ now, (requests t).begin now = .ok call
  | _ => True

theorem order_requested {requests : TaskId → Request} {actions : List Action} {s : State}
    (requested : ∀ action ∈ actions, action.Requested requests) (reached : run step init actions = some s)
    {front back : List (TaskId × Call)} {t : TaskId} {call : Call}
    (place : order init actions = front ++ (t, call) :: back) : ∃ now, (requests t).begin now = .ok call := by
  have member : (t, call) ∈ order init actions := by
    rw [place]
    exact List.mem_append_right _ List.mem_cons_self
  exact requested _ (order_asked reached _ member)

/-- An event that a call returns is the one that the store has now. -/
theorem apply_ok {store : Store} {call : Call} {event : Event} (keyed : store.Keyed)
    (h : (apply store call).2.result = .ok event) : (apply store call).1 event.eventId = some event := by
  cases call with
  | createEvent body =>
    simp only [apply] at h ⊢
    cases built : Event.create body.eventId body.coefficient body.deadline .new with
    | none =>
      rw [built] at h
      cases h
    | some created =>
      rw [built] at h
      cases present : store created.eventId with
      | some stored =>
        simp only [present] at h
        cases h
      | none =>
        simp only [present] at h ⊢
        obtain rfl := Except.ok.inj h
        exact Function.update_self ..
  | setEventState change =>
    simp only [apply] at h ⊢
    cases found : store change.eventId with
    | none =>
      rw [found] at h
      cases h
    | some current =>
      simp only [found] at h ⊢
      by_cases allowed : isTransitionAllowed current.state change.newState = true
      · simp only [if_pos allowed] at h ⊢
        rcases conclude_result change (current.modelCopy change) current.state with same | ⟨same, -⟩
        · obtain rfl := Except.ok.inj (same.symm.trans h)
          have id : (current.modelCopy change).eventId = change.eventId := keyed _ current found
          rw [id]
          exact Function.update_self ..
        · cases same.symm.trans h
      · rw [if_neg allowed] at h
        cases h

theorem respond_event {statusCode statusCode' : Nat} {event : Event} {read : EventRead}
    (h : respond statusCode event = ⟨statusCode', .event read⟩) :
    read.eventId = event.eventId ∧ read.state = event.state := by
  unfold respond at h
  split at h
  · cases h
  · rename_i found valid
    obtain ⟨price, -, rfl⟩ := Option.map_eq_some_iff.mp valid
    obtain rfl := Body.event.inj (Answer.mk.inj h).2
    exact ⟨rfl, rfl⟩

theorem answer_event {request : Request} {result : Except Raised Event} {statusCode : Nat} {read : EventRead}
    (h : request.answer result = ⟨statusCode, .event read⟩) :
    ∃ event, result = .ok event ∧ read.eventId = event.eventId ∧ read.state = event.state := by
  cases result with
  | ok event => cases request <;> exact ⟨event, rfl, respond_event h⟩
  | error error => cases request <;> cases error <;> cases h

/-- What is answered with an event has it in the store. -/
theorem answer_continues {store : Store} {request : Request} {call : Call} {task : Task}
    {result : Except Raised Event} {statusCode : Nat} {read : EventRead} (keyed : store.Keyed)
    (answered : Answered (apply store call).2 task) (ended : task.result = some result)
    (answer : request.answer result = ⟨statusCode, .event read⟩) :
    Store.Continues (apply store call).1 read.eventId read.state := by
  obtain ⟨event, rfl, id, state⟩ := answer_event answer
  rcases answered_result answered ended with same | ⟨never, -⟩
  · rw [id, state]
    exact ⟨event, apply_ok keyed same.symm, isTransitionAllowed_refl event.state⟩
  · cases never

theorem answer_refused {request : Request} {result : Except Raised Event}
    (refused : (request.answer result).statusCode ∈ [404, 409, 422]) :
    ∃ error, result = .error error ∧ error.Refusal := by
  have responds : ∀ statusCode event, (respond statusCode event).statusCode = statusCode ∨
      (respond statusCode event).statusCode = 500 := by
    intro statusCode event
    unfold respond
    split
    · exact Or.inr rfl
    · exact Or.inl rfl
  cases result with
  | ok event =>
    cases request with
    | postEvent =>
      rcases responds 201 event with code | code <;> simp [Request.answer, postEvent, code] at refused
    | putEvent =>
      rcases responds 200 event with code | code <;> simp [Request.answer, putEvent, code] at refused
  | error error =>
    refine ⟨error, rfl, ?_⟩
    cases error with
    | validationError | publishFailed =>
      cases request <;> simp [Request.answer, postEvent, putEvent, internalServerError] at refused
    | _ => trivial

theorem apply_refused {store : Store} {call : Call} {error : Raised} (refusal : error.Refusal)
    (h : (apply store call).2.result = .error error) : (apply store call).1 = store := by
  cases call with
  | createEvent body =>
    simp only [apply] at h ⊢
    split at h
    · rfl
    · split at h
      · rfl
      · cases h
  | setEventState change =>
    simp only [apply] at h ⊢
    split at h
    · rfl
    · rename_i current found
      split at h
      · rcases conclude_result change (current.modelCopy change) current.state with same | ⟨same, -⟩
        · cases same.symm.trans h
        · obtain rfl := Except.error.inj (same.symm.trans h)
          exact refusal.elim
      · rename_i refused
        rw [if_neg refused]

/-- A refused request leaves the store as it is. -/
theorem refused_unchanged {store : Store} {request : Request} {call : Call} {task : Task}
    {result : Except Raised Event} (answered : Answered (apply store call).2 task)
    (ended : task.result = some result) (refused : (request.answer result).statusCode ∈ [404, 409, 422]) :
    (apply store call).1 = store := by
  obtain ⟨error, rfl, refusal⟩ := answer_refused refused
  rcases answered_result answered ended with same | ⟨same, -⟩
  · exact apply_refused refusal same.symm
  · obtain rfl := Except.error.inj same
    exact refusal.elim

def answerTo (requests : TaskId → Request) (s : State) (t : TaskId) : Option Answer :=
  (s.tasks t).result.map (requests t).answer

def Event.toRead (event : Event) : EventRead :=
  { eventId := event.eventId, coefficient := event.coefficient, deadline := event.deadline, state := event.state }

/-- What a GET tells a client of an event. -/
def Reads (s : State) (read : EventRead) : Prop :=
  (∃ eventId, getEventById s eventId = ⟨200, .event read⟩) ∨
    ∃ now reads, listEvents s now = ⟨200, .events reads⟩ ∧ read ∈ reads

/-- What some client has been told of an event. A GET runs while no call has control. -/
def Told (requests : TaskId → Request) (s : State) (read : EventRead) : Prop :=
  (∃ t statusCode, answerTo requests s t = some ⟨statusCode, .event read⟩) ∨ s.current = none ∧ Reads s read

/-- A GET tells what the store holds. The value of the request that has written it decides whether the model takes
it: a PUT stores what the model rejects. -/
structure GetsAnswered (requests : TaskId → Request) (log : List (TaskId × Call)) (s : State) : Prop where
  absent : ∀ eventId, s.data.lookup eventId = none → getEventById s eventId = notFound
  present : ∀ eventId event, s.data.lookup eventId = some event → ∃ t ∈ log.map Prod.fst,
    (requests t).eventId = eventId ∧ coefficientField (requests t).coefficient = some event.coefficient ∧
      (RoundsInside (requests t).coefficient → getEventById s eventId = ⟨200, .event event.toRead⟩) ∧
      (¬ RoundsInside (requests t).coefficient → getEventById s eventId = internalServerError)
  listed : ∀ now,
    (∀ event ∈ listActiveEvents s now, getEventById s event.eventId = ⟨200, .event event.toRead⟩) ∧
        listEvents s now = ⟨200, .events ((listActiveEvents s now).map Event.toRead)⟩ ∨
      (∃ event ∈ listActiveEvents s now, getEventById s event.eventId = internalServerError) ∧
        listEvents s now = internalServerError

structure RequestsAnswered (requests : TaskId → Request) (actions : List Action) (s : State) : Prop where
  answers : ∀ t answer, answerTo requests s t = some answer → ∃ front call back,
    order init actions = front ++ (t, call) :: back ∧
      Answers (replay .empty front).1 (.publishRaises t ∈ actions) (requests t) answer ∧
      (answer.statusCode ∈ [404, 409, 422] → (apply (replay .empty front).1 call).1 = (replay .empty front).1)
  gets : GetsAnswered requests (order init actions) s
  kept : ∀ early late middle read, actions = early ++ late → run step init early = some middle →
    Told requests middle read →
      (∃ event, s.data.lookup read.eventId = some event ∧ isTransitionAllowed read.state event.state = true) ∧
      getEventById s read.eventId ≠ notFound ∧
      (∀ read', Reads s read' → read'.eventId = read.eventId →
        isTransitionAllowed read.state read'.state = true) ∧
      ∀ front u call back, order init actions = front ++ (u, call) :: back →
        u ∉ (order init early).map Prod.fst → (replay .empty front).1.Continues read.eventId read.state

/-! ### What the GET routes answer -/

/-- The call writes this coefficient to the event, if it writes at all. -/
def Call.Writes (eventId : UUID) (coefficient : Decimal) : Call → Prop
  | .createEvent body => body.eventId = eventId ∧ coefficientField body.coefficient = some coefficient
  | .setEventState change => change.eventId = eventId ∧ change.coefficient = coefficient

theorem apply_written {store : Store} {call : Call} {eventId : UUID} {event : Event}
    (found : (apply store call).1 eventId = some event) :
    store eventId = some event ∨ call.Writes eventId event.coefficient := by
  cases call with
  | createEvent body =>
    simp only [apply] at found
    split at found
    · exact Or.inl found
    · rename_i created built
      split at found
      · exact Or.inl found
      · simp only [Function.update_apply] at found
        split at found
        · rename_i same
          obtain rfl := Option.some.inj found
          obtain ⟨quantized, field, rfl⟩ := Option.map_eq_some_iff.mp built
          exact Or.inr ⟨same.symm, field⟩
        · exact Or.inl found
  | setEventState change =>
    simp only [apply] at found
    split at found
    · exact Or.inl found
    · split at found
      · simp only [Function.update_apply] at found
        split at found
        · rename_i same
          obtain rfl := Option.some.inj found
          exact Or.inr ⟨same.symm, rfl⟩
        · exact Or.inl found
      · exact Or.inl found

theorem replay_written {store : Store} {log : List (TaskId × Call)} {eventId : UUID} {event : Event}
    (found : (replay store log).1 eventId = some event) :
    store eventId = some event ∨ ∃ entry ∈ log, entry.2.Writes eventId event.coefficient := by
  induction log generalizing store with
  | nil => exact Or.inl found
  | cons entry rest ih =>
    rcases ih found with before | ⟨later, member, writes⟩
    · rcases apply_written before with kept | writes
      · exact Or.inl kept
      · exact Or.inr ⟨entry, List.mem_cons_self, writes⟩
    · exact Or.inr ⟨later, List.mem_cons_of_mem _ member, writes⟩

theorem begin_writes {request : Request} {now : Instant} {call : Call} {eventId : UUID} {coefficient : Decimal}
    (begins : request.begin now = .ok call) (writes : call.Writes eventId coefficient) :
    request.eventId = eventId ∧ coefficientField request.coefficient = some coefficient := by
  cases request with
  | postEvent id value deadline =>
    obtain ⟨quantized, field, rfl, -⟩ := begin_post begins
    obtain ⟨rfl, again⟩ := writes
    refine ⟨rfl, field.trans ?_⟩
    by_cases inside : RoundsInside value
    · exact (field_inside field inside).symm.trans again
    · cases (field_outside field inside).symm.trans again
  | putEvent id requestId value deadline state =>
    obtain ⟨quantized, field, rfl⟩ := begin_put begins
    obtain ⟨rfl, rfl⟩ := writes
    exact ⟨rfl, field⟩

/-- What the store holds has been written by a request. -/
theorem holds_written {requests : TaskId → Request} {actions : List Action} {s : State} {eventId : UUID}
    {event : Event} (requested : ∀ action ∈ actions, action.Requested requests)
    (reached : run step init actions = some s) (idle : s.current = none)
    (found : s.data.lookup eventId = some event) : ∃ t ∈ (order init actions).map Prod.fst,
      (requests t).eventId = eventId ∧ coefficientField (requests t).coefficient = some event.coefficient := by
  have holds := ((linear_idle idle).mp (run_linear reached)).2
  rcases replay_written ((holds eventId).symm.trans found) with never | ⟨⟨t, call⟩, member, writes⟩
  · cases never
  · obtain ⟨front, back, place⟩ := List.append_of_mem member
    obtain ⟨now, begins⟩ := order_requested requested reached place
    exact ⟨t, List.mem_map_of_mem member, begin_writes begins writes⟩

theorem getEventById_found {s : State} {eventId : UUID} {event : Event} (found : s.data.lookup eventId = some event) :
    getEventById s eventId = respond 200 event := by
  simp only [getEventById, found]

theorem mem_listActive {s : State} (inv : Inv s) {now : Instant} {event : Event}
    (member : event ∈ listActiveEvents s now) : s.data.lookup event.eventId = some event := by
  obtain ⟨key, found⟩ := Dict.mem_values.mp (List.mem_of_mem_filter member)
  exact inv.keyed key event found ▸ found

theorem gets_answered {requests : TaskId → Request} {actions : List Action} {s : State}
    (requested : ∀ action ∈ actions, action.Requested requests) (reached : run step init actions = some s)
    (idle : s.current = none) : GetsAnswered requests (order init actions) s := by
  have present : ∀ eventId event, s.data.lookup eventId = some event → ∃ t ∈ (order init actions).map Prod.fst,
      (requests t).eventId = eventId ∧ coefficientField (requests t).coefficient = some event.coefficient ∧
        (RoundsInside (requests t).coefficient → getEventById s eventId = ⟨200, .event event.toRead⟩) ∧
        (¬ RoundsInside (requests t).coefficient → getEventById s eventId = internalServerError) := by
    intro eventId event found
    obtain ⟨t, member, id, field⟩ := holds_written requested reached idle found
    rw [getEventById_found found]
    exact ⟨t, member, id, field, fun inside => respond_inside field inside 200 event.eventId event.deadline event.state,
      fun outside => respond_outside field outside 200 event.eventId event.deadline event.state⟩
  refine ⟨fun eventId absent => by simp only [getEventById, absent], present, fun now => ?_⟩
  by_cases served : ∀ event ∈ listActiveEvents s now, getEventById s event.eventId = ⟨200, .event event.toRead⟩
  · refine Or.inl ⟨served, ?_⟩
    have reads : (listActiveEvents s now).mapM EventRead.modelValidate =
        some ((listActiveEvents s now).map Event.toRead) := by
      rw [mapM_eq_some, List.map_map]
      refine List.map_congr_left ?_
      intro event member
      have answer := served event member
      rw [getEventById_found (mem_listActive (run_inv reached) member), respond] at answer
      cases valid : EventRead.modelValidate event with
      | none => simp [valid, internalServerError] at answer
      | some read => simpa [valid] using answer
    simp only [listEvents, reads]
  · push Not at served
    obtain ⟨event, member, refused⟩ := served
    have found := mem_listActive (run_inv reached) member
    obtain ⟨t, -, -, -, inside, outside⟩ := present event.eventId event found
    have fails := outside fun within => refused (inside within)
    refine Or.inr ⟨⟨event, member, fails⟩, ?_⟩
    rw [getEventById_found found, respond] at fails
    have unread : (listActiveEvents s now).mapM EventRead.modelValidate = none := by
      by_contra listed
      obtain ⟨reads, mapped⟩ := Option.ne_none_iff_exists'.mp listed
      obtain ⟨read, -, valid⟩ := List.mem_map.mp (mapM_eq_some.mp mapped ▸ List.mem_map_of_mem member)
      rw [← valid] at fails
      cases fails
    simp only [listEvents, unread]

/-- A GET that tells of an event tells the state that the store has of it. -/
theorem reads_stored {s : State} (inv : Inv s) {read : EventRead} (reads : Reads s read) :
    ∃ event, s.data.lookup read.eventId = some event ∧ event.state = read.state := by
  have validated : ∀ event, s.data.lookup event.eventId = some event → EventRead.modelValidate event = some read →
      ∃ event, s.data.lookup read.eventId = some event ∧ event.state = read.state := by
    intro event found valid
    obtain ⟨price, -, rfl⟩ := Option.map_eq_some_iff.mp valid
    exact ⟨event, found, rfl⟩
  rcases reads with ⟨eventId, got⟩ | ⟨now, reads, got, member⟩
  · unfold getEventById at got
    split at got
    · cases got
    · rename_i event found
      unfold respond at got
      split at got
      · cases got
      · rename_i valid
        obtain rfl := Body.event.inj (Answer.mk.inj got).2
        exact validated event (inv.keyed eventId event found ▸ found) valid
  · unfold listEvents at got
    split at got
    · cases got
    · rename_i listed mapped
      obtain rfl := Body.events.inj (Answer.mk.inj got).2
      have each := mapM_eq_some.mp mapped
      obtain ⟨event, active, valid⟩ := List.mem_map.mp (each ▸ List.mem_map_of_mem member)
      exact validated event (mem_listActive inv active) valid

omit [Pydantic] in
/-- A log that goes on past what is in order already. -/
theorem order_extends {log early late front back : List (TaskId × Call)} {u : TaskId} {call : Call}
    (grown : log = early ++ late) (place : log = front ++ (u, call) :: back)
    (outside : u ∉ early.map Prod.fst) : ∃ middle, front = early ++ middle := by
  rcases List.append_eq_append_iff.mp (grown.symm.trans place) with ⟨middle, same, -⟩ | ⟨rest, same, tail⟩
  · exact ⟨middle, same⟩
  · cases rest with
    | nil => exact ⟨[], by simpa using same.symm⟩
    | cons entry rest =>
      obtain ⟨rfl, -⟩ := List.cons.inj tail
      refine absurd ?_ outside
      rw [same, List.map_append]
      exact List.mem_append_right _ List.mem_cons_self

omit [Pydantic] in
theorem empty_keyed : Store.empty.Keyed := by
  intro id event found
  cases found

/-- What a client has been told of an event stays so, for every request that has not begun by then. -/
theorem told_continues {requests : TaskId → Request} {actions : List Action} {s : State} {read : EventRead}
    (reached : run step init actions = some s) (told : Told requests s read) :
    (replay .empty (order init actions)).1.Continues read.eventId read.state := by
  rcases told with ⟨t, statusCode, answer⟩ | ⟨idle, reads⟩
  · obtain ⟨result, ended, content⟩ := Option.map_eq_some_iff.mp answer
    obtain ⟨front, call, back, place, answered⟩ := ended_reply reached ended
    have now := answer_continues (replay_keyed empty_keyed front) answered ended content
    have later := replay_continues now back
    rw [place, replay_append]
    exact later
  · obtain ⟨event, found, state⟩ := reads_stored (run_inv reached) reads
    have holds := ((linear_idle idle).mp (run_linear reached)).2
    exact ⟨event, (holds _).symm.trans found, state ▸ isTransitionAllowed_refl event.state⟩

/-- Every answer tells what the store held at one moment of the request, a request that is refused changes
nothing, and no later request or read meets an older state of an event than a client has been told. -/
theorem requests_answered {requests : TaskId → Request} {actions : List Action} {s : State}
    (requested : ∀ action ∈ actions, action.Requested requests) (reached : run step init actions = some s)
    (idle : s.current = none) : RequestsAnswered requests actions s where
  answers t answer answers := by
    obtain ⟨result, ended, rfl⟩ := Option.map_eq_some_iff.mp answers
    obtain ⟨front, call, back, place, answered⟩ := ended_reply reached ended
    obtain ⟨now, begins⟩ := order_requested requested reached place
    refine ⟨front, call, back, place, ?_, refused_unchanged answered ended⟩
    cases asked : requests t with
    | postEvent eventId value deadline =>
      rw [asked] at begins
      exact post_answers begins answered ended
    | putEvent eventId requestId value deadline state =>
      rw [asked] at begins
      exact put_answers (replay_keyed empty_keyed front) begins answered ended (run_failed reached)
  gets := gets_answered requested reached idle
  kept := by
    rintro early late middle read rfl first told
    have continues := told_continues first told
    have grown : order init (early ++ late) = order init early ++ order middle late := order_append first
    have stored : ∃ event, s.data.lookup read.eventId = some event ∧
        isTransitionAllowed read.state event.state = true := by
      obtain ⟨event, found, follows⟩ := replay_continues continues (order middle late)
      have holds := ((linear_idle idle).mp (run_linear reached)).2
      rw [grown, replay_append] at holds
      exact ⟨event, (holds _).trans found, follows⟩
    refine ⟨stored, ?_, ?_, ?_⟩
    · obtain ⟨event, found, -⟩ := stored
      rw [getEventById_found found, respond]
      split <;> simp [internalServerError, notFound]
    · intro read' reads same
      obtain ⟨event, found, follows⟩ := stored
      obtain ⟨event', found', state⟩ := reads_stored (run_inv reached) reads
      rw [same] at found'
      obtain rfl := Option.some.inj (found.symm.trans found')
      exact state ▸ follows
    · intro front u call back place outside
      obtain ⟨between, rfl⟩ := order_extends grown place outside
      rw [replay_append]
      exact replay_continues continues between

end

/-- What the clients of `overlappingPuts` ask for. -/
def overlappingRequests : TaskId → Request
  | 0 => .postEvent 1 ⟨false, 15, -1⟩ 90
  | 1 => .putEvent 1 (some "r") ⟨false, 175, -2⟩ 90 .finishedWin
  | _ => .putEvent 1 (some "q") ⟨false, 18, -1⟩ 90 .finishedLose

theorem requests_answered_overlappingPuts : ∃ s, Machine.run step init overlappingPuts = some s ∧
    RequestsAnswered overlappingRequests overlappingPuts s ∧
    [0, 1, 2].map (answerTo overlappingRequests s) =
      [some ⟨201, .event ⟨1, ⟨false, 150, -2⟩, 90, .new⟩⟩, some ⟨200, .event ⟨1, ⟨false, 175, -2⟩, 90, .finishedWin⟩⟩,
        some ⟨422, .detail "state transition FINISHED_WIN->FINISHED_LOSE not allowed"⟩] ∧
    [1, 2].map (getEventById s) = [⟨200, .event ⟨1, ⟨false, 175, -2⟩, 90, .finishedWin⟩⟩, notFound] := by
  obtain ⟨s, reached⟩ := Option.isSome_iff_exists.mp
    (show (Machine.run step init overlappingPuts).isSome = true by decide)
  have ended : (Machine.run step init overlappingPuts).map (fun s =>
      (s.current, [0, 1, 2].map (answerTo overlappingRequests s), [1, 2].map (getEventById s))) = some (none,
      [some ⟨201, .event ⟨1, ⟨false, 150, -2⟩, 90, .new⟩⟩, some ⟨200, .event ⟨1, ⟨false, 175, -2⟩, 90, .finishedWin⟩⟩,
        some ⟨422, .detail "state transition FINISHED_WIN->FINISHED_LOSE not allowed"⟩],
      [⟨200, .event ⟨1, ⟨false, 175, -2⟩, 90, .finishedWin⟩⟩, notFound]) := by decide
  rw [reached] at ended
  obtain ⟨idle, told⟩ := Prod.mk.inj (Option.some.inj ended)
  obtain ⟨answers, gets⟩ := Prod.mk.inj told
  refine ⟨s, reached, requests_answered (fun action member => ?_) reached idle, answers, gets⟩
  fin_cases member <;> first
    | trivial
    | exact ⟨0, rfl⟩

end BetSettlement.LineProvider
