import BetSettlement.Contract
import BetSettlement.Python.Dict

/-! The payload of a delivery, before and after its validation. -/

namespace BetSettlement
open Python

/-- pydantic's conversions of a value that may be anything. -/
class Lax (V : Type) where
  int : V → Option Int
  uuid : V → Option UUID
  enum {α : Type} (ofValue : String → Option α) : V → Option α
  decimal : V → Option Decimal
  awareDatetime : V → Option Instant
  str : V → Option String

def EventTerminalState.ofValue : String → Option EventTerminalState
  | "FINISHED_WIN" => some .finishedWin
  | "FINISHED_LOSE" => some .finishedLose
  | _ => none

variable [Pydantic] {V : Type} [Lax V]

def EventFinishedMessage.fields : List String :=
  ["schema_version", "event_id", "new_state", "coefficient", "occurred_at", "correlation_id"]

/-- Extra fields are forbidden, and `schema_version` alone has a default. -/
def EventFinishedMessage.modelValidate (payload : Dict String V) : Option EventFinishedMessage :=
  if ∀ name ∈ payload.keys, name ∈ fields then do
    let schemaVersion ← match payload.lookup "schema_version" with
      | none => some 1
      | some value => Lax.int value
    let eventId ← (payload.lookup "event_id").bind Lax.uuid
    let newState ← (payload.lookup "new_state").bind (Lax.enum EventTerminalState.ofValue)
    let coefficient ← (payload.lookup "coefficient").bind Lax.decimal
    let occurredAt ← (payload.lookup "occurred_at").bind Lax.awareDatetime
    let correlationId ← (payload.lookup "correlation_id").bind Lax.str
    if versioned : 1 ≤ schemaVersion then
      if admitted : coefficientAdmitted coefficient = true then
        some { schemaVersion, eventId, newState, coefficient, occurredAt, correlationId, versioned, admitted }
      else none
    else none
  else none

end BetSettlement
