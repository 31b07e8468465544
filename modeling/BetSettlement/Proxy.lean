import BetSettlement.LineProvider.Routes
import BetSettlement.BetMaker.Absence
import BetSettlement.Listing

/-!
# The events that bet-maker lists

`GET /events` of bet-maker asks line-provider for its list, with the retries that all its requests have.
-/

namespace BetSettlement
open Python Machine BetMaker

def Rendering.read (rendering : Rendering) (read : LineProvider.EventRead) : JsonValue :=
  rendering.body ⟨read.eventId, read.coefficient, read.deadline, read.state⟩

/-- The answers of line-provider's GET routes. They have no body to validate, and a plain text is not JSON. -/
def Rendering.response (rendering : Rendering) (answer : LineProvider.Answer) : Response where
  statusCode := answer.statusCode
  content :=
    match answer.content with
    | .event read => .json (rendering.read read)
    | .events reads => .json (.list (reads.map rendering.read))
    | .detail text => .json (.dict [("detail", .str text)])
    | .plain _ | .validationErrors => .rejected

/-- What is written of the model is read back by bet-maker's copy of it. -/
structure Rendering.ReadsBack [Decoding] (rendering : Rendering) (read : LineProvider.EventRead) : Prop where
  eventId : Lax.uuid (.str (rendering.eventId read.eventId) : JsonValue) = some read.eventId
  coefficient : Lax.decimal (.str (rendering.coefficient read.coefficient) : JsonValue) = some read.coefficient
  deadline : Decoding.datetime (.str (rendering.deadline read.deadline)) = some (.aware read.deadline)
  state : Lax.enum EventState.ofValue (.str (rendering.state read.state) : JsonValue) = some read.state

def BetMaker.EventRead.ofRead (read : LineProvider.EventRead) : BetMaker.EventRead :=
  { eventId := read.eventId, coefficient := read.coefficient, deadline := .aware read.deadline, state := read.state }

section
variable [Decoding] {rendering : Rendering}

theorem modelValidate_read {read : LineProvider.EventRead} (readsBack : rendering.ReadsBack read) :
    BetMaker.EventRead.modelValidate (rendering.read read) = .ok (.ofRead read) := by
  set members : List (String × JsonValue) := [("event_id", .str (rendering.eventId read.eventId)),
    ("coefficient", .str (rendering.coefficient read.coefficient)),
    ("deadline", .str (rendering.deadline read.deadline)), ("state", .str (rendering.state read.state))] with is_members
  have names : members.map Prod.fst = BetMaker.EventRead.fields := rfl
  have distinct : (members.map Prod.fst).Nodup := names ▸ (by decide : BetMaker.EventRead.fields.Nodup)
  have found : ∀ member ∈ members, (Dict.ofMembers members).lookup member.1 = some member.2 :=
    fun member listed => Dict.lookup_ofMembers distinct listed
  simp only [is_members, List.forall_mem_cons] at found
  obtain ⟨eventId, coefficient, deadline, state, -⟩ := found
  have keys : ∀ name ∈ (Dict.ofMembers members).keys, name ∈ BetMaker.EventRead.fields :=
    fun name listed => names ▸ Dict.mem_ofMembers.mp listed
  simp only [Rendering.read, Rendering.body, BetMaker.EventRead.modelValidate, ← is_members]
  rw [if_pos keys]
  simp only [is_members, eventId, coefficient, deadline, state, Option.bind_eq_bind, Option.bind_some,
    readsBack.eventId, readsBack.coefficient, readsBack.deadline, readsBack.state]
  rfl

omit [Decoding] in
theorem depth_read (read : LineProvider.EventRead) : (rendering.read read).depth = 1 := rfl

omit [Decoding] in
theorem depth_reads (reads : List LineProvider.EventRead) :
    (JsonValue.list (reads.map rendering.read)).depth ≤ 2 := by
  have items : JsonValue.depthItems (reads.map rendering.read) ≤ 1 := by
    induction reads with
    | nil => exact Nat.zero_le 1
    | cons read rest ih =>
      rw [List.map_cons, JsonValue.depthItems, depth_read]
      exact max_le le_rfl ih
  rw [JsonValue.depth]
  omega

theorem readEvents_reads [Interpreter] (deep : 2 ≤ Interpreter.recursionLimit) {reads : List LineProvider.EventRead}
    (readsBack : ∀ read ∈ reads, rendering.ReadsBack read) :
    readEvents (rendering.response ⟨200, .events reads⟩) = .ok (reads.map .ofRead) := by
  have shallow : ¬ Interpreter.recursionLimit < (JsonValue.list (reads.map rendering.read)).depth :=
    not_lt.mpr ((depth_reads reads).trans deep)
  have decoded : (reads.map rendering.read).mapM BetMaker.EventRead.modelValidate = .ok (reads.map .ofRead) := by
    clear shallow
    induction reads with
    | nil => rfl
    | cons read rest ih =>
      rw [List.map_cons, List.mapM_cons, modelValidate_read (readsBack read List.mem_cons_self),
        ih fun other later => readsBack other (List.mem_cons_of_mem _ later)]
      rfl
  rw [readEvents_success rfl, Response.json]
  simp only [Rendering.response, if_neg shallow]
  exact decoded

theorem read_event [Interpreter] (deep : 0 < Interpreter.recursionLimit) {read : LineProvider.EventRead}
    (roundTrips : rendering.RoundTrips ⟨read.eventId, read.coefficient, read.deadline, read.state⟩) :
    ((rendering.response ⟨200, .event read⟩).aread >>= HttpEventLookup.read) =
      .ok (some { eventId := read.eventId, deadline := .aware read.deadline, state := read.state }) := by
  have shallow : ¬ Interpreter.recursionLimit < (rendering.read read).depth := not_lt.mpr deep
  rw [read_parsed rfl, Response.json]
  simp only [Rendering.response, if_neg shallow]
  change (EventSnapshot.ofPayload (rendering.body _)).map some = _
  rw [ofPayload_body roundTrips]
  rfl

end

section
variable [Pydantic]

/-- What both services make of `GET /event/{id}` is what its route answers, read by the lookup. A record that its own
model rejects is an outage to bet-maker. -/
theorem getEvent_answers [Interpreter] [Decoding] [Tenacity] {s : LineProvider.State} {eventId : UUID}
    {rendering : Rendering} (roundTrips : ∀ event, s.data.lookup eventId = some event → rendering.RoundTrips event)
    (deep : 0 < Interpreter.recursionLimit) {attempts : Nat} (some_attempt : 0 < attempts) :
    match getEvent s eventId with
    | .answered snapshot => HttpEventLookup.answer attempts
        (fun _ => .response (rendering.response (LineProvider.getEventById s eventId))) = .ok snapshot
    | .unavailable => ∃ reason, HttpEventLookup.answer attempts
        (fun _ => .response (rendering.response (LineProvider.getEventById s eventId))) =
          .error (.lineProviderUnavailable reason) := by
  rw [answer_ends some_attempt]
  unfold getEvent LineProvider.getEventById
  cases stored : s.data.lookup eventId with
  | none => rfl
  | some event =>
    simp only [LineProvider.respond]
    cases valid : LineProvider.EventRead.modelValidate event with
    | none => exact ⟨"HTTPStatusError: " ++ toString 500, rfl⟩
    | some read =>
      obtain ⟨price, -, rfl⟩ := Option.map_eq_some_iff.mp valid
      obtain ⟨hex, deadline, state⟩ := roundTrips event stored
      have reads : ((rendering.response ⟨200, .event ⟨event.eventId, price, event.deadline, event.state⟩⟩).aread >>=
          HttpEventLookup.read) = .ok (some (EventSnapshot.ofEvent event)) := read_event deep ⟨hex, deadline, state⟩
      exact congrArg (Except.mapError unavailable) reads

/-- What one request of bet-maker's meets: an error on the way, or line-provider's route at some instant. -/
inductive EventsRequest where
  | failed (name : String)
  | answered (s : LineProvider.State) (now : Instant)

/-- The list that a request is answered with. -/
def EventsRequest.served : EventsRequest → Option (List LineProvider.EventRead)
  | .failed _ => none
  | .answered s now => (LineProvider.listActiveEvents s now).mapM LineProvider.EventRead.modelValidate

def EventsRequest.outcome (rendering : Rendering) : EventsRequest → Outcome
  | .failed name => .transportError name
  | .answered s now => .response (rendering.response (LineProvider.listEvents s now))

theorem outcome_served {rendering : Rendering} {request : EventsRequest} {reads : List LineProvider.EventRead}
    (served : request.served = some reads) :
    request.outcome rendering = .response (rendering.response ⟨200, .events reads⟩) := by
  cases request with
  | failed name => cases served
  | answered s now =>
    change (LineProvider.listActiveEvents s now).mapM _ = _ at served
    simp only [EventsRequest.outcome, LineProvider.listEvents, served]

/-- What is not served is retried: an event of the list that its model rejects makes line-provider answer 500. -/
theorem outcome_retryable {rendering : Rendering} {request : EventsRequest} :
    (request.outcome rendering).retryable = true ↔ request.served = none := by
  cases request with
  | failed name => exact iff_of_true rfl rfl
  | answered s now =>
    simp only [EventsRequest.outcome, EventsRequest.served, LineProvider.listEvents]
    cases (LineProvider.listActiveEvents s now).mapM LineProvider.EventRead.modelValidate with
    | none => exact iff_of_true rfl rfl
    | some reads => simp [Outcome.retryable, Outcome.transient, Rendering.response, http5xxFloor]

theorem unserved_raises [Interpreter] [Decoding] {rendering : Rendering} {request : EventsRequest}
    (unserved : request.served = none) : ∃ reason,
      ((request.outcome rendering).answer readEvents).mapError unavailable = .error (.lineProviderUnavailable reason) := by
  cases request with
  | failed name => exact ⟨name, rfl⟩
  | answered s now =>
    change (LineProvider.listActiveEvents s now).mapM _ = none at unserved
    refine ⟨"HTTPStatusError: " ++ toString 500, ?_⟩
    simp only [EventsRequest.outcome, LineProvider.listEvents, unserved]
    rfl

theorem mapM_eventId {events : List LineProvider.Event} {reads : List LineProvider.EventRead}
    (valid : events.mapM LineProvider.EventRead.modelValidate = some reads) :
    reads.map LineProvider.EventRead.eventId = events.map LineProvider.Event.eventId ∧
      ∀ event ∈ events, ∃ read, LineProvider.EventRead.modelValidate event = some read := by
  have each := mapM_eq_some.mp valid
  have all : ∀ event ∈ events, ∃ read, LineProvider.EventRead.modelValidate event = some read := by
    intro event member
    obtain ⟨read, -, first⟩ := List.mem_map.mp (each ▸ List.mem_map_of_mem member)
    exact ⟨read, first.symm⟩
  refine ⟨List.map_injective_iff.mpr (Option.some_injective _) ?_, all⟩
  calc (reads.map LineProvider.EventRead.eventId).map some
      = (reads.map some).map (Option.map LineProvider.EventRead.eventId) := by simp
    _ = (events.map LineProvider.EventRead.modelValidate).map (Option.map LineProvider.EventRead.eventId) := by rw [each]
    _ = (events.map LineProvider.Event.eventId).map some := by
      rw [List.map_map, List.map_map]
      refine List.map_congr_left fun event member => ?_
      obtain ⟨read, first⟩ := all event member
      obtain ⟨price, -, rfl⟩ := Option.map_eq_some_iff.mp first
      simp [first]

/-- Of the events that line-provider can list, those are listed that a bet could be placed on at that instant. -/
theorem listed_placeable {s : LineProvider.State} {now : Instant} {reads : List LineProvider.EventRead}
    (inv : LineProvider.Inv s) (served : (EventsRequest.answered s now).served = some reads) (eventId : UUID)
    (amount : Decimal) : eventId ∈ reads.map LineProvider.EventRead.eventId ↔
      (getEvent s eventId).placed eventId amount now = .checked eventId amount := by
  obtain ⟨ids, valid⟩ := mapM_eventId (show (LineProvider.listActiveEvents s now).mapM _ = some reads from served)
  rw [ids, LineProvider.mem_listActiveEvents inv]
  constructor
  · rintro ⟨event, found, new, ahead⟩
    have listed : event ∈ LineProvider.listActiveEvents s now := by
      simp only [LineProvider.listActiveEvents, List.mem_filter, LineProvider.State.listAll, Dict.mem_values,
        decide_eq_true_eq]
      exact ⟨⟨eventId, found⟩, new, ahead⟩
    obtain ⟨read, first⟩ := valid event listed
    obtain ⟨price, -, same⟩ := Option.map_eq_some_iff.mp first
    subst same
    simp [getEvent, found, first, Lookup.placed, checkBettable, not_le.mpr ahead, new]
  · intro checked
    obtain ⟨-, -, open_⟩ := checked_open (Or.inr rfl) checked
    exact open_

section
variable [Interpreter] [Decoding] [Tenacity]

/-- `GET /events` of bet-maker gives up where no request is answered with a list, and passes the first list on
otherwise. The events on it are those that `POST /bet` would have accepted a bet on. -/
theorem events_proxied {attempts : Nat} (some_attempt : 0 < attempts) {asked : Nat → EventsRequest}
    {rendering : Rendering} (deep : 2 ≤ Interpreter.recursionLimit)
    (reachable : ∀ n s now, asked n = .answered s now → ∃ actions,
      run LineProvider.step LineProvider.init actions = some s)
    (readsBack : ∀ n reads, (asked n).served = some reads → ∀ read ∈ reads, rendering.ReadsBack read) :
    ((∀ j < attempts, (asked j).served = none) ∧ ∃ reason,
      listActiveEvents attempts (fun j => (asked j).outcome rendering) 0 =
        .error (.lineProviderUnavailable reason) attempts) ∨
    ∃ n s now reads, n < attempts ∧ (∀ j < n, (asked j).served = none) ∧ asked n = .answered s now ∧
      (EventsRequest.answered s now).served = some reads ∧
      listActiveEvents attempts (fun j => (asked j).outcome rendering) 0 = .ok (reads.map .ofRead) (n + 1) ∧
      (reads.map LineProvider.EventRead.eventId).Nodup ∧
      ∀ eventId amount, eventId ∈ reads.map LineProvider.EventRead.eventId ↔
        (getEvent s eventId).placed eventId amount now = .checked eventId amount := by
  have ends := listActiveEvents_ends some_attempt fun j => (asked j).outcome rendering
  by_cases refused : ∀ j < attempts, (asked j).served = none
  · refine Or.inl ⟨refused, ?_⟩
    have last : requests attempts (fun j => (asked j).outcome rendering) = attempts := by
      obtain ⟨k, rfl⟩ := Nat.exists_eq_succ_of_ne_zero some_attempt.ne'
      exact position_eq (Nat.lt_succ_self k)
        (fun i early => outcome_retryable.mpr (refused i (Nat.lt_succ_of_lt early))) (Or.inr rfl)
    rw [ends, last]
    obtain ⟨reason, raised⟩ : ∃ reason, (((asked (attempts - 1)).outcome rendering).answer readEvents).mapError
        unavailable = .error (.lineProviderUnavailable reason) :=
      unserved_raises (refused (attempts - 1) (Nat.sub_lt some_attempt Nat.one_pos))
    exact ⟨reason, by rw [raised]; rfl⟩
  · push Not at refused
    obtain ⟨n, ⟨early, answered⟩, least⟩ :=
      WellFounded.has_min Nat.lt_wfRel.wf {n | n < attempts ∧ (asked n).served ≠ none} refused
    have before : ∀ j < n, (asked j).served = none := by
      intro j less
      by_contra served
      exact least j ⟨less.trans early, served⟩ less
    obtain ⟨reads, served⟩ := Option.ne_none_iff_exists'.mp answered
    have stops : ((asked n).outcome rendering).retryable = false := by
      rw [Bool.eq_false_iff]
      exact fun retried => answered (outcome_retryable.mp retried)
    have last : requests attempts (fun j => (asked j).outcome rendering) = n + 1 :=
      position_eq early (fun i less => outcome_retryable.mpr (before i less)) (Or.inl stops)
    have returns : listActiveEvents attempts (fun j => (asked j).outcome rendering) 0 =
        .ok (reads.map .ofRead) (n + 1) := by
      rw [ends, last, Nat.add_sub_cancel, outcome_served served]
      have decoded := readEvents_reads deep (readsBack n reads served)
      change ended (n + 1) ((readEvents (rendering.response ⟨200, .events reads⟩)).mapError unavailable) = _
      rw [decoded]
      rfl
    cases request : asked n with
    | failed name =>
      rw [request] at served
      cases served
    | answered s now =>
      obtain ⟨actions, run⟩ := reachable n s now request
      have inv := LineProvider.run_inv run
      rw [request] at served
      refine Or.inr ⟨n, s, now, reads, early, before, request, served, returns, ?_, listed_placeable inv served⟩
      rw [(mapM_eventId served).1]
      exact LineProvider.listActiveEvents_nodup inv now

end

end

/-- The first request fails on the way, and the second one finds event 7 in the store. -/
def secondAnswered (s : LineProvider.State) : Nat → EventsRequest
  | 0 => .failed "ConnectError"
  | _ => .answered s 20

theorem events_proxied_secondAnswered : ∃ s, run LineProvider.step LineProvider.init openSeven = some s ∧
    listActiveEvents 3 (fun j => (secondAnswered s j).outcome renderSeven) 0 =
      .ok [⟨7, ⟨false, 175, -2⟩, .aware 1893456000000000, .new⟩] 2 := by
  obtain ⟨s, reached⟩ := Option.isSome_iff_exists.mp
    (show (run LineProvider.step LineProvider.init openSeven).isSome = true by decide)
  have listed : (run LineProvider.step LineProvider.init openSeven).map (fun s =>
      (EventsRequest.answered s 20).served) = some (some [⟨7, ⟨false, 175, -2⟩, 1893456000000000, .new⟩]) := by decide
  rw [reached] at listed
  replace listed := Option.some.inj listed
  have reachable : ∀ n s' now, secondAnswered s n = .answered s' now → ∃ actions,
      run LineProvider.step LineProvider.init actions = some s' := by
    intro n s' now same
    cases n with
    | zero => cases same
    | succ n =>
      obtain ⟨rfl, rfl⟩ := EventsRequest.answered.inj same
      exact ⟨openSeven, reached⟩
  have readsBack : ∀ n reads, (secondAnswered s n).served = some reads →
      ∀ read ∈ reads, renderSeven.ReadsBack read := by
    intro n reads served read member
    cases n with
    | zero => cases served
    | succ n =>
      obtain rfl := Option.some.inj (listed.symm.trans served)
      obtain rfl := List.mem_singleton.mp member
      exact ⟨by decide, by decide, by decide, by decide⟩
  refine ⟨s, reached, ?_⟩
  have some_attempt : 0 < 3 := by decide
  rcases events_proxied some_attempt (by decide) reachable readsBack with
    ⟨refused, -⟩ | ⟨n, s', now, reads, early, before, request, served, returns, -⟩
  · cases (refused 1 (by decide)).symm.trans listed
  · cases n with
    | zero => cases request
    | succ n =>
      obtain ⟨rfl, rfl⟩ := EventsRequest.answered.inj request
      cases n with
      | zero =>
        obtain rfl := Option.some.inj (listed.symm.trans served)
        exact returns
      | succ n => cases (before 1 (by omega)).symm.trans listed

end BetSettlement
