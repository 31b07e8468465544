import BetSettlement.BetMaker.Payloads
import BetSettlement.LineProvider.Selectors
import BetSettlement.LineProvider.Coefficients
import BetSettlement.System

/-!
# What is listed is what can be bet on

Line-provider filters its store by state and deadline. `place_bet` refuses by deadline and state, on the
snapshot that it reads from line-provider's answer.
-/

namespace BetSettlement
open Python Machine BetMaker

def BetMaker.EventSnapshot.ofEvent (event : LineProvider.Event) : EventSnapshot :=
  { eventId := event.eventId, deadline := .aware event.deadline, state := event.state }

/-- How line-provider writes the fields of an event. -/
structure Rendering where
  eventId : UUID → String
  coefficient : Decimal → String
  deadline : Instant → String
  state : EventState → String

/-- What is written of an event is read back. -/
structure Rendering.RoundTrips [Decoding] (rendering : Rendering) (event : LineProvider.Event) : Prop where
  eventId : Decoding.uuidOfHex (rendering.eventId event.eventId) = some event.eventId
  deadline : Decoding.datetime (.str (rendering.deadline event.deadline)) = some (.aware event.deadline)
  state : Lax.enum EventState.ofValue (.str (rendering.state event.state) : JsonValue) = some event.state

def Rendering.body (rendering : Rendering) (event : LineProvider.Event) : JsonValue :=
  .dict [("event_id", .str (rendering.eventId event.eventId)),
    ("coefficient", .str (rendering.coefficient event.coefficient)),
    ("deadline", .str (rendering.deadline event.deadline)), ("state", .str (rendering.state event.state))]

/-- What `HttpEventLookup` makes of a record of the store, or None where there is none. -/
def Rendering.snapshot [Decoding] (rendering : Rendering) :
    Option LineProvider.Event → Except Exn (Option EventSnapshot)
  | none => .ok none
  | some event => do return some (← EventSnapshot.ofPayload (rendering.body event))

section
variable [Decoding]

theorem ofPayload_body {rendering : Rendering} {event : LineProvider.Event} (roundTrips : rendering.RoundTrips event) :
    EventSnapshot.ofPayload (rendering.body event) = .ok (EventSnapshot.ofEvent event) := by
  have eventId : getItem (rendering.body event) "event_id" = .ok (.str (rendering.eventId event.eventId)) := rfl
  have deadline : getItem (rendering.body event) "deadline" = .ok (.str (rendering.deadline event.deadline)) := rfl
  have state : getItem (rendering.body event) "state" = .ok (.str (rendering.state event.state)) := rfl
  unfold EventSnapshot.ofPayload
  simp only [eventId, deadline, state, uuidOf, EventSnapshot.create, roundTrips.eventId, roundTrips.deadline,
    roundTrips.state, bind, Except.bind, EventSnapshot.ofEvent]

theorem snapshot_stored {rendering : Rendering} {stored : Option LineProvider.Event}
    (roundTrips : ∀ event, stored = some event → rendering.RoundTrips event) :
    rendering.snapshot stored = .ok (stored.map EventSnapshot.ofEvent) := by
  cases stored with
  | none => rfl
  | some event =>
    simp only [Rendering.snapshot, ofPayload_body (roundTrips event rfl)]
    rfl

end

section
variable [Pydantic]

theorem bettable_stored {s : LineProvider.State} {eventId : UUID} {now : Instant} :
    Bettable now ((s.data.lookup eventId).map EventSnapshot.ofEvent) ↔
      ∃ event, s.data.lookup eventId = some event ∧ event.state = .new ∧ now < event.deadline := by
  constructor
  · rintro ⟨found, deadline, same, aware, ahead, active⟩
    obtain ⟨event, stored, rfl⟩ := Option.map_eq_some_iff.mp same
    obtain rfl := Datetime.aware.inj aware
    exact ⟨event, stored, active, ahead⟩
  · rintro ⟨event, stored, active, ahead⟩
    exact ⟨EventSnapshot.ofEvent event, event.deadline, by rw [stored]; rfl, rfl, ahead, active⟩

theorem comparable_stored {s : LineProvider.State} {eventId : UUID} :
    Comparable ((s.data.lookup eventId).map EventSnapshot.ofEvent) := by
  intro found same
  obtain ⟨event, -, rfl⟩ := Option.map_eq_some_iff.mp same
  exact ⟨event.deadline, rfl⟩

section
variable [Decoding]

/-- `place_bet`, which looks events up in this store. -/
def placeBetOn (s : LineProvider.State) (rendering : Rendering) (server : InsertServer) (now : Instant) (eventId : UUID)
    (amount : Decimal) : EStateM Exn World BetRead :=
  placeBet server now eventId amount fun asked => raiseFrom (rendering.snapshot (s.data.lookup asked))

theorem placeBetOn_eq {s : LineProvider.State} {rendering : Rendering} {eventId : UUID}
    (roundTrips : ∀ event, s.data.lookup eventId = some event → rendering.RoundTrips event) (server : InsertServer)
    (now : Instant) (amount : Decimal) :
    placeBetOn s rendering server now eventId amount =
      placeBet server now eventId amount fun _ => pure ((s.data.lookup eventId).map EventSnapshot.ofEvent) := by
  simp only [placeBetOn, placeBet, snapshot_stored roundTrips, raiseFrom]

/-- An event is listed, and then once, exactly when a bet on it is inserted, and it is refused otherwise. -/
structure ListedIffBettable (s : LineProvider.State) (rendering : Rendering) (server : InsertServer) (now : Instant)
    (eventId : UUID) (amount : Decimal) (w : World) : Prop where
  inserted : eventId ∈ (LineProvider.listActiveEvents s now).map LineProvider.Event.eventId ↔
    ∃ bet w', placeBetOn s rendering server now eventId amount w = .ok (BetRead.modelValidate bet) w' ∧
      Placed w eventId bet w'
  once : eventId ∈ (LineProvider.listActiveEvents s now).map LineProvider.Event.eventId →
    ((LineProvider.listActiveEvents s now).map LineProvider.Event.eventId).count eventId = 1
  refused : eventId ∉ (LineProvider.listActiveEvents s now).map LineProvider.Event.eventId ↔
    ∃ reason, placeBetOn s rendering server now eventId amount w = .error (.eventNotBettable reason) w

/-- The store and the checks of `place_bet` agree on every event. The amount has a check of its own, in the column. -/
theorem listed_iff_bettable {actions : List LineProvider.Action} {s : LineProvider.State}
    (reached : run LineProvider.step LineProvider.init actions = some s) {rendering : Rendering} {eventId : UUID}
    (roundTrips : ∀ event, s.data.lookup eventId = some event → rendering.RoundTrips event) {server : InsertServer}
    {w : World} (serves : server.Serves w) {value : Decimal} {create : BetCreate}
    (accepted : BetCreate.modelValidate eventId value = some create) (now : Instant) :
    ListedIffBettable s rendering server now create.eventId create.amount w ↔
      ((∃ event, s.data.lookup eventId = some event ∧ event.state = .new ∧ now < event.deadline) →
        value.toRat < 9999999999.995) := by
  obtain ⟨amount, field, rfl⟩ := Option.map_eq_some_iff.mp accepted
  have inv := LineProvider.run_inv reached
  have built := create_accepted field (server.uuid w.opened) eventId (server.now w.opened)
  have places := placeBetOn_eq roundTrips server now amount
  have listed : eventId ∈ (LineProvider.listActiveEvents s now).map LineProvider.Event.eventId ↔
      Bettable now ((s.data.lookup eventId).map EventSnapshot.ofEvent) :=
    (LineProvider.mem_listActiveEvents inv).trans bettable_stored.symm
  rw [← fitsNumeric_iff field, ← bettable_stored]
  by_cases bettable : Bettable now ((s.data.lookup eventId).map EventSnapshot.ofEvent)
  · by_cases fits : fitsNumeric amount = true
    · rw [if_pos fits] at built
      obtain ⟨w', inserts, placed⟩ := placeBet_places serves bettable built
      rw [← places] at inserts
      refine iff_of_true ⟨iff_of_true (listed.mpr bettable) ⟨_, w', inserts, placed⟩,
        List.count_eq_one_of_mem (LineProvider.listActiveEvents_nodup inv now),
        iff_of_false (not_not_intro (listed.mpr bettable)) ?_⟩ fun _ => fits
      rintro ⟨reason, refuses⟩
      cases inserts.symm.trans refuses
    · rw [if_neg fits] at built
      obtain ⟨w', overflows, -⟩ := placeBet_overflows serves bettable (quantizeAmount_again field) built
      rw [← places] at overflows
      refine iff_of_false (fun agrees => ?_) fun small => fits (small bettable)
      obtain ⟨bet, w'', inserts, -⟩ := agrees.inserted.mp (listed.mpr bettable)
      cases overflows.symm.trans inserts
  · rcases placeBet_refuses server w eventId amount bettable with ⟨⟨reason, refuses⟩, -⟩ | ⟨-, naive⟩
    · rw [← places] at refuses
      refine iff_of_true ⟨iff_of_false (fun member => bettable (listed.mp member)) ?_,
        List.count_eq_one_of_mem (LineProvider.listActiveEvents_nodup inv now),
        iff_of_true (fun member => bettable (listed.mp member)) ⟨reason, refuses⟩⟩ fun passed => absurd passed bettable
      rintro ⟨bet, w', inserts, -⟩
      cases refuses.symm.trans inserts
    · exact absurd comparable_stored naive

end

end

/-- Event 7 is created with a deadline at the start of 2030. -/
def openSeven : List LineProvider.Action :=
  [.spawn 0 (.createEvent ⟨7, ⟨false, 175, -2⟩, 1893456000000000⟩), .resume 0, .advance 10, .advance 10, .advance 10]

/-- The texts of event 7. -/
def renderSeven : Rendering where
  eventId _ := "00000000-0000-0000-0000-000000000007"
  coefficient _ := "1.75"
  deadline _ := "2030-01-01T00:00:00Z"
  state
    | .new => "NEW"
    | .finishedWin => "FINISHED_WIN"
    | .finishedLose => "FINISHED_LOSE"

theorem openSeven_stored : ∃ s, run LineProvider.step LineProvider.init openSeven = some s ∧
    (LineProvider.listActiveEvents s 20).map LineProvider.Event.eventId = [7] ∧
    ∀ event, s.data.lookup 7 = some event → renderSeven.RoundTrips event := by
  obtain ⟨s, reached⟩ := Option.isSome_iff_exists.mp
    (show (run LineProvider.step LineProvider.init openSeven).isSome = true by decide)
  have stored : (run LineProvider.step LineProvider.init openSeven).map (fun s => s.data.lookup 7) =
      some (some ⟨7, ⟨false, 175, -2⟩, 1893456000000000, .new⟩) := by decide
  have listed : (run LineProvider.step LineProvider.init openSeven).map (fun s =>
      (LineProvider.listActiveEvents s 20).map LineProvider.Event.eventId) = some [7] := by decide
  rw [reached] at stored listed
  refine ⟨s, reached, Option.some.inj listed, ?_⟩
  intro event found
  obtain rfl := Option.some.inj ((Option.some.inj stored).symm.trans found)
  exact ⟨by decide, by decide, by decide⟩

/-- Event 7 is listed, and the bet on it is neither inserted nor refused. -/
theorem tenBillion_not_bettable :
    ∃ s, run LineProvider.step LineProvider.init openSeven = some s ∧
      (∀ event, s.data.lookup 7 = some event → renderSeven.RoundTrips event) ∧
      BetCreate.modelValidate 7 tenBillion = some ⟨7, ⟨false, 1000000000000, -2⟩⟩ ∧
      7 ∈ (LineProvider.listActiveEvents s 20).map LineProvider.Event.eventId ∧
      ¬ ListedIffBettable s renderSeven healthy 20 7 ⟨false, 1000000000000, -2⟩ { db := .start ∅ } := by
  obtain ⟨s, reached, listed, roundTrips⟩ := openSeven_stored
  have accepted : BetCreate.modelValidate 7 tenBillion = some ⟨7, ⟨false, 1000000000000, -2⟩⟩ := by decide
  have member : 7 ∈ (LineProvider.listActiveEvents s 20).map LineProvider.Event.eventId := by
    rw [listed]
    exact List.mem_singleton_self 7
  have bettable : Bettable 20 ((s.data.lookup 7).map EventSnapshot.ofEvent) :=
    bettable_stored.mpr ((LineProvider.mem_listActiveEvents (LineProvider.run_inv reached)).mp member)
  have rounds : quantizeAmount ⟨false, 1000000000000, -2⟩ = some ⟨false, 1000000000000, -2⟩ := by decide
  have refused : Bet.create 100 7 ⟨false, 1000000000000, -2⟩ 10 = none := by decide
  obtain ⟨w', overflows, -⟩ := placeBet_overflows healthy_serves bettable rounds refused
  refine ⟨s, reached, roundTrips, accepted, member, ?_⟩
  intro agrees
  obtain ⟨bet, w'', inserts, -⟩ := agrees.inserted.mp member
  rw [placeBetOn_eq roundTrips] at inserts
  cases overflows.symm.trans inserts

theorem listed_iff_bettable_openSeven :
    ∃ s bet w', run LineProvider.step LineProvider.init openSeven = some s ∧
      7 ∈ (LineProvider.listActiveEvents s 20).map LineProvider.Event.eventId ∧
      placeBetOn s renderSeven healthy 20 7 ⟨false, 1000, -2⟩ { db := .start ∅ } =
        .ok (BetRead.modelValidate bet) w' ∧ Placed { db := .start ∅ } 7 bet w' := by
  obtain ⟨s, reached, listed, roundTrips⟩ := openSeven_stored
  have accepted : BetCreate.modelValidate 7 ⟨false, 10, 0⟩ = some ⟨7, ⟨false, 1000, -2⟩⟩ := by decide
  have small : (⟨false, 10, 0⟩ : Decimal).toRat < 9999999999.995 := by norm_num [Decimal.toRat]
  have member : 7 ∈ (LineProvider.listActiveEvents s 20).map LineProvider.Event.eventId := by
    rw [listed]
    exact List.mem_singleton_self 7
  have agrees : ListedIffBettable s renderSeven healthy 20 7 ⟨false, 1000, -2⟩ { db := .start ∅ } :=
    (listed_iff_bettable reached roundTrips healthy_serves accepted 20).mpr fun _ => small
  obtain ⟨bet, w', places, placed⟩ := agrees.inserted.mp member
  exact ⟨s, bet, w', reached, member, places, placed⟩

end BetSettlement
