import BetSettlement.Contract
import BetSettlement.Python.Dict

/-! Line-provider's event models. Every one of them validates its coefficient the same way. -/

namespace BetSettlement.LineProvider
open Python

variable [Pydantic]

def quantizeCoefficient (value : Decimal) : Option Decimal :=
  value.quantize defaultContext (-2) .halfUp

/-- `Coefficient`: the field's limits, then the validator that rounds what they let through. -/
def coefficientField (value : Decimal) : Option Decimal :=
  if coefficientAdmitted value then quantizeCoefficient value else none

structure EventCreate where
  eventId : UUID
  coefficient : Decimal
  deadline : Instant
  deriving DecidableEq

/-- `FutureDeadline` compares with the clock at validation time. -/
def EventCreate.modelValidate (eventId : UUID) (coefficient : Decimal) (deadline now : Instant) :
    Option EventCreate :=
  if deadline ≤ now then none
  else (coefficientField coefficient).map fun coefficient => { eventId, coefficient, deadline }

structure EventUpdate where
  coefficient : Decimal
  deadline : Instant
  state : EventState
  deriving DecidableEq

def EventUpdate.modelValidate (coefficient : Decimal) (deadline : Instant) (state : EventState) :
    Option EventUpdate :=
  (coefficientField coefficient).map fun coefficient => { coefficient, deadline, state }

structure Event where
  eventId : UUID
  coefficient : Decimal
  deadline : Instant
  state : EventState
  deriving DecidableEq

def Event.create (eventId : UUID) (coefficient : Decimal) (deadline : Instant) (state : EventState) :
    Option Event :=
  (coefficientField coefficient).map fun coefficient => { eventId, coefficient, deadline, state }

structure EventRead where
  eventId : UUID
  coefficient : Decimal
  deadline : Instant
  state : EventState
  deriving DecidableEq

/-- `EventRead.model_validate(event.model_dump())`. -/
def EventRead.modelValidate (event : Event) : Option EventRead :=
  (coefficientField event.coefficient).map fun coefficient =>
    { eventId := event.eventId, coefficient, deadline := event.deadline, state := event.state }

end BetSettlement.LineProvider
