import BetSettlement.Contract

/-! The bets table and what the interactors read from it and return. -/

namespace BetSettlement.BetMaker
open Python

inductive BetStatus where
  | pending | won | lost | cancelled
  deriving DecidableEq

inductive SettledVia where
  | consumer | reconciler
  deriving DecidableEq

structure Bet where
  id : UUID
  eventId : UUID
  amount : Decimal
  status : BetStatus
  createdAt : Instant
  updatedAt : Instant
  settledAt : Option Instant
  settledVia : Option SettledVia
  deriving DecidableEq

def quantizeAmount (value : Decimal) : Option Decimal :=
  value.quantize defaultContext (-2) .halfUp

/-- What the column type `Numeric(12, 2)` holds, of the values with two decimal places. -/
def fitsNumeric (amount : Decimal) : Bool := amount.digits < 10 ^ 12

/-- The row that `place_bet` flushes. The server fills both timestamps. -/
def Bet.create (id eventId : UUID) (amount : Decimal) (now : Instant) : Option Bet :=
  match quantizeAmount amount with
  | none => none
  | some amount =>
    if fitsNumeric amount then
      some { id, eventId, amount, status := .pending, createdAt := now, updatedAt := now,
             settledAt := none, settledVia := none }
    else none

structure BetRead where
  id : UUID
  eventId : UUID
  amount : Decimal
  status : BetStatus
  createdAt : Instant
  deriving DecidableEq

def BetRead.modelValidate (bet : Bet) : BetRead :=
  { id := bet.id, eventId := bet.eventId, amount := bet.amount, status := bet.status,
    createdAt := bet.createdAt }

structure SettleResult where
  eventId : UUID
  terminalState : EventTerminalState
  settledCount : Nat
  settledBetIds : List UUID
  settledVia : SettledVia
  settledAt : Instant
  deriving DecidableEq

/-- `cancelled_via` has one value. -/
structure CancelResult where
  eventId : UUID
  cancelledCount : Nat
  cancelledBetIds : List UUID
  cancelledAt : Instant
  deriving DecidableEq

def terminalToStatus : EventTerminalState → BetStatus
  | .finishedWin => .won
  | .finishedLose => .lost

/-- The condition of `get_pending_locked`. -/
def getPendingLocked (eventId : UUID) (bet : Bet) : Bool :=
  bet.eventId == eventId && bet.status == .pending

/-- The values of the UPDATE, with the columns that the server fills. -/
structure Settlement where
  eventId : UUID
  status : BetStatus
  settledVia : SettledVia
  deriving DecidableEq

def Settlement.update (settlement : Settlement) (now : Instant) (bet : Bet) : Bet :=
  { bet with status := settlement.status, settledAt := some now, settledVia := some settlement.settledVia,
             updatedAt := now }

def schemaVersionSupported : Int := 1

/-- The interactors that open a transaction, with their arguments. -/
inductive Call where
  | settleBetsForEvent (eventId : UUID) (terminalState : EventTerminalState) (settledVia : SettledVia)
  | cancelBetsForEvent (eventId : UUID)
  | placeBet (eventId : UUID) (amount : Decimal)
  deriving DecidableEq

def Call.settlement : Call → Option Settlement
  | .settleBetsForEvent eventId terminalState settledVia =>
    some { eventId, status := terminalToStatus terminalState, settledVia }
  | .cancelBetsForEvent eventId => some { eventId, status := .cancelled, settledVia := .reconciler }
  | .placeBet _ _ => none

def Call.eventId : Call → UUID
  | .settleBetsForEvent eventId _ _ | .cancelBetsForEvent eventId | .placeBet eventId _ => eventId

theorem getPendingLocked_iff {eventId : UUID} {bet : Bet} :
    getPendingLocked eventId bet = true ↔ bet.eventId = eventId ∧ bet.status = .pending := by
  simp [getPendingLocked]

theorem terminalToStatus_ne_pending (state : EventTerminalState) : terminalToStatus state ≠ .pending := by
  cases state <;> decide

theorem terminalToStatus_injective {state other : EventTerminalState}
    (same : terminalToStatus state = terminalToStatus other) : state = other := by
  cases state <;> cases other <;> simp_all [terminalToStatus]

theorem Call.settlement_decides {call : Call} {settlement : Settlement}
    (h : call.settlement = some settlement) :
    settlement.status ≠ .pending ∧ settlement.eventId = call.eventId ∧
      (settlement.status = .cancelled → settlement.settledVia = .reconciler) := by
  cases call with
  | settleBetsForEvent eventId state via =>
    obtain rfl := Option.some.inj h
    refine ⟨terminalToStatus_ne_pending state, rfl, ?_⟩
    cases state <;> simp [terminalToStatus]
  | cancelBetsForEvent eventId =>
    obtain rfl := Option.some.inj h
    exact ⟨by simp, rfl, fun _ => rfl⟩
  | placeBet eventId amount => cases h

theorem Bet.create_ok {id eventId : UUID} {amount : Decimal} {now : Instant} {bet : Bet}
    (h : Bet.create id eventId amount now = some bet) :
    bet.id = id ∧ bet.eventId = eventId ∧ bet.status = .pending ∧ bet.settledAt = none ∧
      bet.settledVia = none := by
  unfold Bet.create at h
  split at h
  · cases h
  · split at h
    · obtain rfl := Option.some.inj h
      exact ⟨rfl, rfl, rfl, rfl, rfl⟩
    · cases h

end BetSettlement.BetMaker
