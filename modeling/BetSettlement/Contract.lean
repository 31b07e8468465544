import BetSettlement.Python.Pydantic

/-!
# The contract between the services

Both services declare these types value for value and field for field, and a contract
test compares the declarations.
-/

namespace BetSettlement
open Python

abbrev UUID := BitVec 128

instance : LawfulBEq UUID := inferInstance

/-- `str(id)`: the digits in groups of 8, 4, 4, 4 and 12. -/
def uuidText (id : UUID) : String :=
  let hex := id.toHex.toList
  String.ofList (hex.take 8 ++ '-' :: (hex.drop 8).take 4 ++ '-' :: (hex.drop 12).take 4 ++
    '-' :: (hex.drop 16).take 4 ++ '-' :: hex.drop 20)

/-- An aware datetime, in microseconds since the epoch. -/
abbrev Instant := Int

inductive EventState where
  | new | finishedWin | finishedLose
  deriving DecidableEq

inductive EventTerminalState where
  | finishedWin | finishedLose
  deriving DecidableEq

def EventTerminalState.toEventState : EventTerminalState → EventState
  | .finishedWin => .finishedWin
  | .finishedLose => .finishedLose

/-- `EventTerminalState(state.value)`, which raises on a state that is not terminal. -/
def EventState.terminal : EventState → Option EventTerminalState
  | .new => none
  | .finishedWin => some .finishedWin
  | .finishedLose => some .finishedLose

theorem EventState.terminal_iff {state : EventState} {t : EventTerminalState} :
    state.terminal = some t ↔ state = t.toEventState := by
  cases state <;> cases t <;> simp [terminal, EventTerminalState.toEventState]

theorem EventState.terminal_none {state : EventState} : state.terminal = none ↔ state = .new := by
  cases state <;> simp [terminal]

theorem EventState.terminal_of_ne_new {state : EventState} (decided : state ≠ .new) :
    ∃ t : EventTerminalState, state = t.toEventState := by
  cases state with
  | new => exact absurd rfl decided
  | finishedWin => exact ⟨.finishedWin, rfl⟩
  | finishedLose => exact ⟨.finishedLose, rfl⟩

theorem EventTerminalState.toEventState_injective {t u : EventTerminalState}
    (same : t.toEventState = u.toEventState) : t = u := by
  cases t <;> cases u <;> simp_all [toEventState]

theorem EventTerminalState.toEventState_ne_new (t : EventTerminalState) : t.toEventState ≠ .new := by
  cases t <;> simp [toEventState]

theorem schemaVersion_default : (1 : Int) ≤ 1 := le_rfl

section
variable [Pydantic]

/-- `Field(gt=Decimal("0"), max_digits=8, decimal_places=2)`. -/
def coefficientAdmitted (value : Decimal) : Bool := Pydantic.admits 8 2 value

structure EventFinishedMessage where
  schemaVersion : Int
  eventId : UUID
  newState : EventTerminalState
  coefficient : Decimal
  occurredAt : Instant
  correlationId : String
  versioned : 1 ≤ schemaVersion
  admitted : coefficientAdmitted coefficient = true
  deriving DecidableEq

/-- The constructor with the default schema version, `none` where it raises `ValidationError`. -/
def EventFinishedMessage.create (eventId : UUID) (newState : EventTerminalState) (coefficient : Decimal)
    (occurredAt : Instant) (correlationId : String) : Option EventFinishedMessage :=
  if admitted : coefficientAdmitted coefficient = true then
    some { schemaVersion := 1, eventId, newState, coefficient, occurredAt, correlationId,
           versioned := schemaVersion_default, admitted }
  else none

end

end BetSettlement
