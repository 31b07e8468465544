import BetSettlement.AtLeastOnce
import BetSettlement.BetMaker.Facades
import BetSettlement.BetMaker.Interruption

/-!
# Messages on the wire

Line-provider writes an `EventFinishedMessage` as JSON, and bet-maker reads it with its own copy of the model. The
consumer may meet the same message any number of times, and any order of them.
-/

namespace BetSettlement
open Python Machine BetMaker

def EventTerminalState.value : EventTerminalState → String
  | .finishedWin => "FINISHED_WIN"
  | .finishedLose => "FINISHED_LOSE"

/-- The texts that pydantic writes for the values of the message. -/
structure Encoding where
  eventId : UUID → String
  coefficient : Decimal → String
  occurredAt : Instant → String

section
variable [Pydantic]

/-- The object that is published. -/
def Encoding.members (encoding : Encoding) (message : EventFinishedMessage) : List (String × JsonValue) :=
  [("schema_version", .number (toString message.schemaVersion)),
   ("event_id", .str (encoding.eventId message.eventId)),
   ("new_state", .str message.newState.value),
   ("coefficient", .str (encoding.coefficient message.coefficient)),
   ("occurred_at", .str (encoding.occurredAt message.occurredAt)),
   ("correlation_id", .str message.correlationId)]

/-- The payload of its deliveries. -/
def Encoding.payload (encoding : Encoding) (message : EventFinishedMessage) : Dict String JsonValue :=
  .ofMembers (encoding.members message)

/-- What pydantic writes of a value, pydantic reads back. -/
structure Encoding.ReadsBack [Decoding] (encoding : Encoding) (message : EventFinishedMessage) : Prop where
  schemaVersion : Lax.int (.number (toString message.schemaVersion) : JsonValue) = some message.schemaVersion
  eventId : Lax.uuid (.str (encoding.eventId message.eventId) : JsonValue) = some message.eventId
  newState : Lax.enum EventTerminalState.ofValue (.str message.newState.value : JsonValue) =
    EventTerminalState.ofValue message.newState.value
  coefficient : Lax.decimal (.str (encoding.coefficient message.coefficient) : JsonValue) = some message.coefficient
  occurredAt : Lax.awareDatetime (.str (encoding.occurredAt message.occurredAt) : JsonValue) = some message.occurredAt
  correlationId : Lax.str (.str message.correlationId : JsonValue) = some message.correlationId

/-- The deliveries, as the handler meets them. -/
def Encoding.deliveries (encoding : Encoding) (deliveries : List (Channel × LineProvider.Publication)) :
    List (Channel × Dict String JsonValue) :=
  deliveries.map fun delivery => (delivery.1, encoding.payload delivery.2.message)

section
variable [Decoding]

variable [Tenacity]

end

end

end BetSettlement
