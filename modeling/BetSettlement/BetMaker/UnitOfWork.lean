import BetSettlement.BetMaker.Progress
import BetSettlement.Python.Exceptions

/-!
# One interactor at a time

With no other transaction open an interactor is a coroutine over the database. It opens its
transactions through a `PostgresUnitOfWork` that may be entered again after a failure, and its
statements are the actions of the bets table, which fail where the server says so.
-/

namespace BetSettlement.BetMaker
open Python Machine Std.Do

set_option mvcgen.warning false

/-- The classes of a `DBAPIError` that the consumer tells apart. -/
inductive DBAPIKind where
  | operational | integrity | other
  deriving DecidableEq

/-- `blocked` stands for a statement that waits for good. -/
inductive Exc where
  | dbapi (kind : DBAPIKind) (connectionInvalidated : Bool)
  | timeout
  | validation
  | unsupportedSchemaVersion
  | unitOfWorkNotStarted
  | assertion
  | blocked
  | other (name : String)
  deriving DecidableEq

inductive Statement where
  | select | update | commit
  deriving DecidableEq

/-- How the statements of each transaction end, and what both clocks read in it. -/
structure Server where
  fault : TxId → Statement → Option Exc
  now : TxId → Instant
  clock : TxId → Instant

/-- `_cm` and `_session`, both of the transaction that was entered last. -/
structure PostgresUnitOfWork where
  cm : Option TxId := none
  session : Option TxId := none
  deriving DecidableEq

inductive Disposition where
  | ack
  | reject (requeue : Bool)
  deriving DecidableEq

inductive LogEntry where
  | settleNoop (eventId : UUID) (settledVia : SettledVia)
  | settleCommitted (eventId : UUID) (settledBetIds : List UUID) (settledVia : SettledVia) (newStatus : BetStatus)
  | settleTransientRetry (attemptNumber : Nat) (exc : Exc)
  | settlePoisonToDlq (exc : Exc)
  | settleTransientExhausted (exc : Exc)
  | cancelNoop (eventId : UUID)
  | cancelCommitted (eventId : UUID) (cancelledBetIds : List UUID)
  | tickNoop
  | eventCancelled (eventId : UUID)
  | eventStillNew (eventId : UUID)
  | eventSettled (eventId : UUID) (terminalState : EventTerminalState)
  | eventFailed (eventId : UUID)
  deriving DecidableEq

/-- `opened` numbers the transactions. `attempts` records how each call of the interactor ended. -/
structure World where
  db : Database
  opened : TxId := 0
  uow : PostgresUnitOfWork := {}
  attempts : List (Except Exc SettleResult) := []
  disposed : List Disposition := []
  logged : List LogEntry := []

abbrev Coroutine := EStateM Exc World

def log (entry : LogEntry) : Coroutine Unit :=
  modify fun w => { w with logged := w.logged ++ [entry] }

/-- The database takes the actions, unless one of them has to wait. -/
def perform (actions : List Action) : Coroutine Unit := do
  match run step (← get).db actions with
  | some db => modify fun w => { w with db }
  | none => throw .blocked

def execute (server : Server) (t : TxId) (statement : Statement) (actions : List Action) : Coroutine Unit :=
  match server.fault t statement with
  | some exc => throw exc
  | none => perform actions

def PostgresUnitOfWork.aenter (server : Server) (call : Call) : Coroutine Unit := do
  let t := (← get).opened
  modify fun w => { w with opened := t + 1, uow.cm := some t }
  perform [.begin t call (server.clock t) (server.now t)]
  modify fun w => { w with uow.session := some t }

/-- The property that raises outside the block. -/
def PostgresUnitOfWork.getSession : Coroutine TxId := do
  match (← get).uow.session with
  | some t => pure t
  | none => throw .unitOfWorkNotStarted

/-- The context manager of `sessionmaker.begin()`: a commit that fails has rolled back. -/
def sessionExit (server : Server) (t : TxId) : Option Exc → Coroutine Unit
  | some _ => perform [.abort t]
  | none =>
    match server.fault t .commit with
    | none => perform [.commit t]
    | some exc => do
      perform [.abort t]
      throw exc

/-- The fields are reset only where the context manager has not raised. -/
def PostgresUnitOfWork.aexit (server : Server) (exc : Option Exc) : Coroutine Unit := do
  match (← get).uow.cm with
  | none => throw .assertion
  | some t =>
    sessionExit server t exc
    modify fun w => { w with uow := {} }

def Database.taken (db : Database) (t : TxId) : List UUID :=
  match db.slots t with
  | .active tx => tx.taken
  | _ => []

/-- The statement of `get_pending_locked`, and the reading of the clock after it. -/
def selectPendingLocked (server : Server) (t : TxId) (eventId : UUID) : Coroutine (List UUID) := do
  let found := (← get).db.table.select t (getPendingLocked eventId)
  execute server t .select (.select t :: found.map (.visit t) ++ [.fetch t (server.clock t)])
  return (← get).db.taken t

/-- The UPDATE takes its values from the call that the transaction was begun with. -/
def settleBetsForEvent (server : Server) (eventId : UUID) (terminalState : EventTerminalState)
    (settledVia : SettledVia) : Coroutine SettleResult :=
  asyncWith (PostgresUnitOfWork.aenter server (.settleBetsForEvent eventId terminalState settledVia))
    (PostgresUnitOfWork.aexit server) do
      let t ← PostgresUnitOfWork.getSession
      let betIds ← selectPendingLocked server t eventId
      let settledAt := server.clock t
      if betIds.isEmpty then
        log (.settleNoop eventId settledVia)
        pure { eventId, terminalState, settledCount := 0, settledBetIds := [], settledVia, settledAt }
      else
        execute server t .update [.update t]
        log (.settleCommitted eventId betIds settledVia (terminalToStatus terminalState))
        pure { eventId, terminalState, settledCount := betIds.length, settledBetIds := betIds, settledVia, settledAt }

/-- Its clock is read before the block. -/
def cancelBetsForEvent (server : Server) (eventId : UUID) : Coroutine CancelResult := do
  let cancelledAt := server.clock (← get).opened
  asyncWith (PostgresUnitOfWork.aenter server (.cancelBetsForEvent eventId)) (PostgresUnitOfWork.aexit server) do
    let t ← PostgresUnitOfWork.getSession
    let betIds ← selectPendingLocked server t eventId
    if betIds.isEmpty then
      log (.cancelNoop eventId)
      pure { eventId, cancelledCount := 0, cancelledBetIds := [], cancelledAt }
    else
      execute server t .update [.update t]
      log (.cancelCommitted eventId betIds)
      pure { eventId, cancelledCount := betIds.length, cancelledBetIds := betIds, cancelledAt }

end BetSettlement.BetMaker
