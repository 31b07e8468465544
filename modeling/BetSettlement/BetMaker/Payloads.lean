import BetSettlement.BetMaker.Availability
import BetSettlement.BetMaker.PlaceBet

/-!
# What the decoders do not catch

The decoders subscript, convert and iterate whatever `json.loads` has made of a body. The clauses
name ValueError and KeyError, so a body of another shape raises TypeError or AttributeError past them.
-/

namespace BetSettlement.BetMaker
open Python

/-- An object with the three fields of a snapshot, each of which converts. -/
def Carries [Decoding] (members : List (String × JsonValue)) (snapshot : EventSnapshot) : Prop :=
  ∃ hex deadline state, (Dict.ofMembers members).lookup "event_id" = some (.str hex) ∧
    (Dict.ofMembers members).lookup "deadline" = some deadline ∧
    (Dict.ofMembers members).lookup "state" = some state ∧ Decoding.uuidOfHex hex = some snapshot.eventId ∧
    Decoding.datetime deadline = some snapshot.deadline ∧
    Lax.enum EventState.ofValue state = some snapshot.state

/-- A snapshot of such an object, or `LineProviderUnavailable`. -/
inductive SnapshotOrUnavailable [Decoding] (content : Content) : Except Exn (Option EventSnapshot) → Prop where
  | snapshot {members : List (String × JsonValue)} {snapshot : EventSnapshot}
      (object : content = .json (.dict members)) (carries : Carries members snapshot) :
      SnapshotOrUnavailable content (.ok (some snapshot))
  | reported {reason : String} : SnapshotOrUnavailable content (.error (.lineProviderUnavailable reason))

/-- The events of an array, or `LineProviderUnavailable`. -/
inductive EventsOrUnavailable [Decoding] (content : Content) : Except Exn (List EventRead) → Prop where
  | events {items : List JsonValue} {events : List EventRead} (array : content = .json (.list items))
      (decoded : items.mapM EventRead.modelValidate = .ok events) : EventsOrUnavailable content (.ok events)
  | reported {reason : String} : EventsOrUnavailable content (.error (.lineProviderUnavailable reason))

/-- Decoded and not JSON, or an object that has a string for `event_id` or has none. -/
def SnapshotShaped [Interpreter] : Content → Prop
  | .undecoded => False
  | .rejected => True
  | .json value => value.depth ≤ Interpreter.recursionLimit ∧ ∃ members, value = .dict members ∧
      ∀ item, (Dict.ofMembers members).lookup "event_id" = some item → ∃ hex, item = .str hex

/-- Decoded and not JSON, an array, or an object or a string that is not empty. -/
def EventsShaped [Interpreter] : Content → Prop
  | .undecoded => False
  | .rejected => True
  | .json value => value.depth ≤ Interpreter.recursionLimit ∧
      ((∃ items, value = .list items) ∨ (∃ members, value = .dict members ∧ members ≠ []) ∨
        ∃ s, value = .str s ∧ s ≠ "")

/-- One of the clauses catches it. -/
def Caught (exc : Exn) : Prop := ∃ reason, unavailable exc = .lineProviderUnavailable reason

theorem SnapshotOrUnavailable.caught [Decoding] {content : Content} {exc : Exn}
    (h : SnapshotOrUnavailable content (.error (unavailable exc))) : Caught exc := by
  generalize same : unavailable exc = raised at h
  cases h
  exact ⟨_, same⟩

theorem EventsOrUnavailable.caught [Decoding] {content : Content} {exc : Exn}
    (h : EventsOrUnavailable content (.error (unavailable exc))) : Caught exc := by
  generalize same : unavailable exc = raised at h
  cases h
  exact ⟨_, same⟩

theorem snapshot_caught [Decoding] (content : Content) {exc : Exn} (caught : Caught exc) :
    SnapshotOrUnavailable content (.error (unavailable exc)) := by
  obtain ⟨reason, same⟩ := caught
  exact same ▸ .reported

theorem events_caught [Decoding] (content : Content) {exc : Exn} (caught : Caught exc) :
    EventsOrUnavailable content (.error (unavailable exc)) := by
  obtain ⟨reason, same⟩ := caught
  exact same ▸ .reported

theorem typeError_uncaught : ¬ Caught .typeError := by
  rintro ⟨reason, caught⟩
  cases caught

theorem attributeError_uncaught : ¬ Caught .attributeError := by
  rintro ⟨reason, caught⟩
  cases caught

theorem recursionError_uncaught : ¬ Caught .recursionError := by
  rintro ⟨reason, caught⟩
  cases caught

theorem decodingError_uncaught : ¬ Caught .decodingError := by
  rintro ⟨reason, caught⟩
  cases caught

/-! ### One object -/

section
variable [Decoding]

theorem create_ends (eventId : UUID) (deadline state : JsonValue) :
    (∃ snapshot, EventSnapshot.create eventId deadline state = .ok snapshot ∧ snapshot.eventId = eventId ∧
      Decoding.datetime deadline = some snapshot.deadline ∧ Lax.enum EventState.ofValue state = some snapshot.state) ∨
    EventSnapshot.create eventId deadline state = .error .validationError := by
  unfold EventSnapshot.create
  split
  · rename_i read state' moment chosen
    exact Or.inl ⟨_, rfl, rfl, moment, chosen⟩
  · exact Or.inr rfl

/-- A string for `event_id` leaves only exceptions that are caught. -/
theorem ofPayload_string {members : List (String × JsonValue)} {hex : String}
    (found : (Dict.ofMembers members).lookup "event_id" = some (.str hex)) :
    (∃ snapshot, EventSnapshot.ofPayload (.dict members) = .ok snapshot ∧ Carries members snapshot) ∨
      ∃ exc, EventSnapshot.ofPayload (.dict members) = .error exc ∧ Caught exc := by
  unfold EventSnapshot.ofPayload
  simp only [getItem, found, uuidOf, bind, Except.bind]
  cases parsed : Decoding.uuidOfHex hex with
  | none => exact Or.inr ⟨.valueError, rfl, _, rfl⟩
  | some eventId =>
    cases moment : (Dict.ofMembers members).lookup "deadline" with
    | none => exact Or.inr ⟨.keyError "deadline", rfl, _, rfl⟩
    | some deadline =>
      cases chosen : (Dict.ofMembers members).lookup "state" with
      | none => exact Or.inr ⟨.keyError "state", rfl, _, rfl⟩
      | some state =>
        rcases create_ends eventId deadline state with ⟨snapshot, built, same, at_, in_⟩ | refused
        · exact Or.inl ⟨snapshot, built, hex, deadline, state, found, moment, chosen, same ▸ parsed, at_, in_⟩
        · exact Or.inr ⟨.validationError, refused, _, rfl⟩

theorem uuidOf_other {item : JsonValue} (other : ∀ hex, item ≠ .str hex) :
    ∃ exc, uuidOf item = .error exc ∧ ¬ Caught exc := by
  cases item with
  | str hex => exact absurd rfl (other hex)
  | null => exact ⟨.typeError, rfl, typeError_uncaught⟩
  | bool | number | list | dict => exact ⟨.attributeError, rfl, attributeError_uncaught⟩

theorem ofPayload_other {value : JsonValue} (other : ¬ ∃ members, value = .dict members ∧
      ∀ item, (Dict.ofMembers members).lookup "event_id" = some item → ∃ hex, item = .str hex) :
    ∃ exc, EventSnapshot.ofPayload value = .error exc ∧ ¬ Caught exc := by
  cases value with
  | dict members =>
    have odd : ∃ item, (Dict.ofMembers members).lookup "event_id" = some item ∧ ∀ hex, item ≠ .str hex := by
      by_contra none_odd
      refine other ⟨members, rfl, fun item found => ?_⟩
      by_contra not_string
      exact none_odd ⟨item, found, fun hex same => not_string ⟨hex, same⟩⟩
    obtain ⟨item, found, not_string⟩ := odd
    obtain ⟨exc, raised, uncaught⟩ := uuidOf_other not_string
    refine ⟨exc, ?_, uncaught⟩
    unfold EventSnapshot.ofPayload
    simp only [getItem, found, bind, Except.bind, raised]
  | null | bool | number | str | list => exact ⟨.typeError, rfl, typeError_uncaught⟩

/-- An object or a string hands out its keys or its characters, which no model accepts. -/
theorem strings_classified {content : Content} (strings : List String)
    (not_array : ∀ items, content ≠ .json (.list items)) :
    EventsOrUnavailable content (((strings.map JsonValue.str).mapM EventRead.modelValidate).mapError unavailable) ↔
      strings ≠ [] := by
  cases strings with
  | nil =>
    refine iff_of_false (fun classified => ?_) (by simp)
    cases classified with
    | events array => exact not_array _ array
  | cons first rest =>
    refine iff_of_true ?_ (by simp)
    rw [List.map_cons, List.mapM_cons]
    exact events_caught content (show Caught .validationError from ⟨_, rfl⟩)

theorem modelValidate_raises (item : JsonValue) :
    Raises (fun exc => exc = .validationError) (EventRead.modelValidate item) := by
  unfold EventRead.modelValidate
  split
  · dsimp only
    split
    · exact raises_ok _
    · exact raises_error rfl
  · exact raises_error rfl

end

/-! ### One response -/

theorem raiseForStatus_success {α : Type} {response : Response} (success : response.isSuccess = true)
    (rest : Except Exn α) : (response.raiseForStatus >>= fun _ => rest) = rest := by
  unfold Response.raiseForStatus
  rw [if_pos success]
  rfl

section
variable [Interpreter] [Decoding]

theorem read_success {response : Response} (success : response.isSuccess = true) :
    HttpEventLookup.read response =
      response.json >>= fun payload => EventSnapshot.ofPayload payload >>= fun snapshot => pure (some snapshot) := by
  have found : response.statusCode ≠ 404 := by
    have range : 200 ≤ response.statusCode ∧ response.statusCode ≤ 299 := by simpa [Response.isSuccess] using success
    omega
  unfold HttpEventLookup.read
  rw [if_neg found]
  exact raiseForStatus_success success _

theorem readEvents_success {response : Response} (success : response.isSuccess = true) :
    readEvents response =
      response.json >>= fun payload => iterate payload >>= fun items => items.mapM EventRead.modelValidate :=
  raiseForStatus_success success _

theorem snapshot_classified {response : Response} (success : response.isSuccess = true) :
    SnapshotOrUnavailable response.content ((response.aread >>= HttpEventLookup.read).mapError unavailable) ↔
      SnapshotShaped response.content := by
  unfold Response.aread
  cases found : response.content with
  | undecoded => exact iff_of_false (fun classified => decodingError_uncaught classified.caught) id
  | rejected =>
    simp only [bind, Except.bind, read_success success, Response.json, found]
    exact iff_of_true (snapshot_caught _ ⟨_, rfl⟩) trivial
  | json value =>
    simp only [bind, Except.bind, read_success success, Response.json, found]
    by_cases deep : Interpreter.recursionLimit < value.depth
    · simp only [if_pos deep]
      exact iff_of_false (fun classified => recursionError_uncaught classified.caught) fun shaped =>
        absurd shaped.1 (not_le.mpr deep)
    · simp only [if_neg deep]
      by_cases shaped : ∃ members, value = .dict members ∧
          ∀ item, (Dict.ofMembers members).lookup "event_id" = some item → ∃ hex, item = .str hex
      · refine iff_of_true ?_ ⟨not_lt.mp deep, shaped⟩
        obtain ⟨members, rfl, strings⟩ := shaped
        have ends : (∃ snapshot, EventSnapshot.ofPayload (.dict members) = .ok snapshot ∧ Carries members snapshot) ∨
            ∃ exc, EventSnapshot.ofPayload (.dict members) = .error exc ∧ Caught exc := by
          cases present : (Dict.ofMembers members).lookup "event_id" with
          | none =>
            refine Or.inr ⟨.keyError "event_id", ?_, _, rfl⟩
            unfold EventSnapshot.ofPayload
            simp only [getItem, present, bind, Except.bind]
          | some item =>
            obtain ⟨hex, rfl⟩ := strings item present
            exact ofPayload_string present
        rcases ends with ⟨snapshot, built, carries⟩ | ⟨exc, raised, caught⟩
        · rw [built]
          exact .snapshot rfl carries
        · rw [raised]
          exact snapshot_caught _ caught
      · refine iff_of_false (fun classified => ?_) fun both => shaped both.2
        obtain ⟨exc, raised, uncaught⟩ := ofPayload_other shaped
        simp only [raised] at classified
        exact uncaught classified.caught

theorem events_classified {response : Response} (success : response.isSuccess = true) :
    EventsOrUnavailable response.content ((response.aread >>= readEvents).mapError unavailable) ↔
      EventsShaped response.content := by
  unfold Response.aread
  cases found : response.content with
  | undecoded => exact iff_of_false (fun classified => decodingError_uncaught classified.caught) id
  | rejected =>
    simp only [bind, Except.bind, readEvents_success success, Response.json, found]
    exact iff_of_true (events_caught _ ⟨_, rfl⟩) trivial
  | json value =>
    simp only [bind, Except.bind, readEvents_success success, Response.json, found]
    by_cases deep : Interpreter.recursionLimit < value.depth
    · simp only [if_pos deep]
      exact iff_of_false (fun classified => recursionError_uncaught classified.caught) fun shaped =>
        absurd shaped.1 (not_le.mpr deep)
    · simp only [if_neg deep]
      have shallow := not_lt.mp deep
      cases value with
      | list items =>
        refine iff_of_true ?_ ⟨shallow, Or.inl ⟨items, rfl⟩⟩
        simp only [iterate]
        cases decoded : items.mapM EventRead.modelValidate with
        | ok events => exact .events rfl decoded
        | error exc =>
          obtain rfl := raises_mapM modelValidate_raises items exc decoded
          exact events_caught _ ⟨_, rfl⟩
      | dict members =>
        simp only [iterate]
        rw [strings_classified _ (by simp), ne_eq, List.reverse_eq_nil_iff, keys_ofMembers]
        simp [EventsShaped, shallow]
      | str s =>
        have singles : s.toList.map (fun c => JsonValue.str (String.singleton c)) =
            (s.toList.map String.singleton).map .str := by rw [List.map_map]; rfl
        simp only [iterate]
        rw [singles, strings_classified _ (by simp), ne_eq, List.map_eq_nil_iff, String.toList_eq_nil_iff]
        simp [EventsShaped, shallow]
      | null | bool | number =>
        refine iff_of_false (fun classified => typeError_uncaught classified.caught) ?_
        simp [EventsShaped]

theorem answer_ends [Tenacity] {attempts : Nat} (some_attempt : 0 < attempts) (outcomes : Nat → Outcome) :
    HttpEventLookup.answer attempts outcomes =
      ((outcomes (requests attempts outcomes - 1)).answer HttpEventLookup.read).mapError unavailable := by
  rw [HttpEventLookup.answer, getEvent_ends some_attempt, answerOf_ended]

/-- A body is classified exactly when it decodes and has one of the shapes that the decoders were written for, or is
not JSON. -/
theorem payloads_classified_iff [Tenacity] {attempts : Nat} (some_attempt : 0 < attempts) {outcomes : Nat → Outcome}
    {response : Response} (last : outcomes (requests attempts outcomes - 1) = .response response)
    (success : response.isSuccess = true) :
    ((SnapshotOrUnavailable response.content (HttpEventLookup.answer attempts outcomes) ∧
        ∀ exc, HttpEventLookup.answer attempts outcomes = .error exc → ∀ server now eventId amount w,
          postBetStatus (placeBet server now eventId amount
            (fun _ => raiseFrom (HttpEventLookup.answer attempts outcomes)) w) = 503) ↔
      SnapshotShaped response.content) ∧
    ((EventsOrUnavailable response.content (answerOf (listActiveEvents attempts outcomes 0)) ∧
        (getEventsStatus (listActiveEvents attempts outcomes 0) = 200 ∨
          getEventsStatus (listActiveEvents attempts outcomes 0) = 503)) ↔
      EventsShaped response.content) := by
  have snapshot := snapshot_classified success
  have events := events_classified success
  rw [answer_ends some_attempt, listActiveEvents_ends some_attempt, answerOf_ended, last]
  simp only [Outcome.answer]
  rw [← snapshot, ← events]
  refine ⟨⟨And.left, fun classified => ⟨classified, ?_⟩⟩, And.left, fun classified => ⟨classified, ?_⟩⟩
  · intro exc raised server now eventId amount w
    rw [raised] at classified ⊢
    cases classified
    rfl
  · cases read : (response.aread >>= readEvents).mapError unavailable with
    | ok events => exact Or.inl rfl
    | error exc =>
      rw [read] at classified
      cases classified
      exact Or.inr rfl

end

/-- Line-provider answers every request with this body. -/
def answering (content : Content) : Nat → Outcome := fun _ => .response ⟨200, content⟩

/-- `GET /event/7` answers with an array or with a body that does not decode, and `GET /events` with an empty object
or with null. -/
theorem array_escapes :
    HttpEventLookup.getEvent 3 (answering (.json (.list []))) 0 = .error .typeError 1 ∧
    postBetStatus (placeBet healthy 0 7 ⟨false, 1000, -2⟩
      (fun _ => raiseFrom (HttpEventLookup.answer 3 (answering (.json (.list []))))) { db := .start ∅ }) = 500 ∧
    HttpEventLookup.getEvent 3 (answering (.json (.dict [("event_id", .number "7")]))) 0 = .error .attributeError 1 ∧
    HttpEventLookup.getEvent 3 (answering .undecoded) 0 = .error .decodingError 1 ∧
    listActiveEvents 3 (answering (.json (.dict []))) 0 = .ok [] 1 ∧
    listActiveEvents 3 (answering (.json .null)) 0 = .error .typeError 1 ∧
    getEventsStatus (listActiveEvents 3 (answering (.json .null)) 0) = 500 ∧
    ¬ ∀ attempts outcomes response, 0 < attempts → outcomes (requests attempts outcomes - 1) = .response response →
      response.isSuccess = true → SnapshotOrUnavailable response.content (HttpEventLookup.answer attempts outcomes) ∧
        EventsOrUnavailable response.content (answerOf (listActiveEvents attempts outcomes 0)) := by
  refine ⟨rfl, rfl, rfl, rfl, rfl, rfl, rfl, fun classified => ?_⟩
  obtain ⟨snapshot, -⟩ := classified 3 (answering (.json (.list []))) ⟨200, .json (.list [])⟩ (by decide) rfl rfl
  change SnapshotOrUnavailable _ (.error .typeError) at snapshot
  cases snapshot

/-- An object without the fields. -/
def drifted : Content := .json (.dict [("unexpected", .str "shape")])

theorem payloads_classified_iff_drifted :
    SnapshotOrUnavailable drifted (HttpEventLookup.answer 3 (answering drifted)) ∧
    EventsOrUnavailable drifted (answerOf (listActiveEvents 3 (answering drifted) 0)) := by
  have last : answering drifted (requests 3 (answering drifted) - 1) = .response ⟨200, drifted⟩ := rfl
  have success : (⟨200, drifted⟩ : Response).isSuccess = true := rfl
  obtain ⟨snapshot, events⟩ := payloads_classified_iff (by decide : 0 < 3) last success
  refine ⟨(snapshot.mpr ⟨by decide, _, rfl, ?_⟩).1, (events.mpr ⟨by decide, Or.inr (Or.inl ⟨_, rfl, by simp⟩)⟩).1⟩
  intro item found
  cases found

end BetSettlement.BetMaker
