import BetSettlement.BetMaker.Drain

/-!
# Bet-maker's tasks

The reconciler's tick, the deliveries of the consumer and the POST requests share one database.
Whatever line-provider answers, and whatever the queue delivers, comes from outside.
-/

namespace BetSettlement.BetMaker
open Python Machine

/-- A datetime with an offset, or without one. -/
inductive Datetime where
  | aware (instant : Instant)
  | naive (reading : Instant)
  deriving DecidableEq

structure EventSnapshot where
  eventId : UUID
  deadline : Datetime
  state : EventState
  deriving DecidableEq

/-- How `get_event` ends. -/
inductive Lookup where
  | unavailable
  | answered (snapshot : Option EventSnapshot)
  deriving DecidableEq

/-- What `_reconcile_event` calls on the answer, if anything. -/
def reconcileEvent (eventId : UUID) : Option EventSnapshot → Option Call
  | none => some (.cancelBetsForEvent eventId)
  | some snapshot =>
    match snapshot.state with
    | .finishedWin => some (.settleBetsForEvent eventId .finishedWin .reconciler)
    | .finishedLose => some (.settleBetsForEvent eventId .finishedLose .reconciler)
    | .new => none

inductive PlaceBetError where
  | lineProviderUnavailable
  | eventNotBettable (reason : String)
  | typeError
  deriving DecidableEq

/-- The checks of `place_bet`, before its transaction. Python cannot order naive and aware datetimes. -/
def checkBettable (now : Instant) : Option EventSnapshot → Except PlaceBetError Unit
  | none => .error (.eventNotBettable "event not found")
  | some snapshot =>
    match snapshot.deadline with
    | .naive _ => .error .typeError
    | .aware deadline =>
      if deadline ≤ now then .error (.eventNotBettable "deadline passed")
      else if snapshot.state ≠ .new then .error (.eventNotBettable "event not active")
      else .ok ()

/-- One iteration of the tick's loop, with the transaction that it opened. -/
structure Reconciled where
  eventId : UUID
  lookup : Lookup
  tx : Option TxId
  deriving DecidableEq

inductive Tick where
  | idle
  | ready (todo : List UUID)
  | decided (eventId : UUID) (snapshot : Option EventSnapshot) (call : Call) (todo : List UUID)
  | running (t : TxId) (todo : List UUID)
  deriving DecidableEq

variable [Pydantic]

inductive Handler where
  | idle
  | received (message : EventFinishedMessage) (attempts : Nat)
  | attempting (message : EventFinishedMessage) (attempts : Nat) (t : TxId)
  | acked (message : EventFinishedMessage) (t : TxId)
  | rejected
  deriving DecidableEq

inductive Placing where
  | idle
  | checked (eventId : UUID) (amount : Decimal)
  | opened (t : TxId)
  | raised (error : PlaceBetError)

/-- `log` lists the iterations of the last tick so far. -/
structure Service where
  db : Database
  tick : Tick := .idle
  log : List Reconciled := []
  handlers : Nat → Handler := fun _ => .idle
  placing : Nat → Placing := fun _ => .idle

def Service.start (rows : AList fun _ : UUID => Bet) : Service := { db := .start rows }

inductive TickEvent where
  | read (eventIds : List UUID)
  | lookup (lookup : Lookup)
  | begin (t : TxId) (clock now : Instant)
  | fails
  | next
  | stop

inductive HandlerEvent where
  | deliver (message : EventFinishedMessage)
  | attempt (t : TxId) (clock now : Instant)
  | retry
  | ack
  | reject

inductive PlaceEvent where
  | lookup (eventId : UUID) (amount : Decimal) (lookup : Lookup) (now : Instant)
  | begin (t : TxId) (clock now : Instant)

inductive Event where
  | transaction (action : Action)
  | tick (event : TickEvent)
  | handler (h : Nat) (event : HandlerEvent)
  | place (p : Nat) (event : PlaceEvent)

/-- `SELECT DISTINCT event_id … WHERE status = 'PENDING'`, up to order. -/
def getPendingEventIds (db : Database) : List UUID :=
  ((db.table.rows.entries.filter fun row => row.2.status == .pending).map fun row => row.2.eventId).dedup

def Service.setHandler (s : Service) (h : Nat) (handler : Handler) : Service :=
  { s with handlers := Function.update s.handlers h handler }

def Service.setPlacing (s : Service) (p : Nat) (placing : Placing) : Service :=
  { s with placing := Function.update s.placing p placing }

def Service.record (s : Service) (entry : Reconciled) : Service := { s with log := s.log ++ [entry] }

def Service.begin (s : Service) (t : TxId) (call : Call) (clock now : Instant) : Option Service :=
  (step s.db (.begin t call clock now)).map fun db => { s with db }

def settleCall (message : EventFinishedMessage) : Call :=
  .settleBetsForEvent message.eventId message.newState .consumer

def tickStep (s : Service) : TickEvent → Option Service
  | .read eventIds =>
    match s.tick with
    | .idle =>
      if eventIds.Perm (getPendingEventIds s.db) then some { s with tick := .ready eventIds, log := [] }
      else none
    | _ => none
  | .lookup lookup =>
    match s.tick with
    | .ready (eventId :: todo) =>
      match lookup with
      | .unavailable => some { s.record ⟨eventId, lookup, none⟩ with tick := .ready todo }
      | .answered snapshot =>
        match reconcileEvent eventId snapshot with
        | none => some { s.record ⟨eventId, lookup, none⟩ with tick := .ready todo }
        | some call => some { s with tick := .decided eventId snapshot call todo }
    | _ => none
  | .begin t clock now =>
    match s.tick with
    | .decided eventId snapshot call todo =>
      (s.begin t call clock now).map fun s =>
        { s.record ⟨eventId, .answered snapshot, some t⟩ with tick := .running t todo }
    | _ => none
  | .fails =>
    match s.tick with
    | .decided eventId snapshot _ todo =>
      some { s.record ⟨eventId, .answered snapshot, none⟩ with tick := .ready todo }
    | _ => none
  | .next =>
    match s.tick with
    | .running t todo =>
      match s.db.slots t with
      | .committed _ | .aborted _ => some { s with tick := .ready todo }
      | _ => none
    | _ => none
  | .stop =>
    match s.tick with
    | .ready [] => some { s with tick := .idle }
    | _ => none

/-- A payload that does not parse never gets as far as `deliver`. A COMMIT can take effect and its reply be lost:
the attempt has failed then, though its transaction is committed. -/
def handlerStep (s : Service) (h : Nat) : HandlerEvent → Option Service
  | .deliver message =>
    match s.handlers h with
    | .idle =>
      if message.schemaVersion = schemaVersionSupported then some (s.setHandler h (.received message 0))
      else some (s.setHandler h .rejected)
    | _ => none
  | .attempt t clock now =>
    match s.handlers h with
    | .received message attempts =>
      (s.begin t (settleCall message) clock now).map fun s =>
        s.setHandler h (.attempting message (attempts + 1) t)
    | _ => none
  | .retry =>
    match s.handlers h with
    | .attempting message attempts t =>
      match s.db.slots t with
      | .aborted _ | .committed _ =>
        if attempts < 3 then some (s.setHandler h (.received message attempts)) else none
      | _ => none
    | _ => none
  | .ack =>
    match s.handlers h with
    | .attempting message _ t =>
      match s.db.slots t with
      | .committed _ => some (s.setHandler h (.acked message t))
      | _ => none
    | _ => none
  | .reject =>
    match s.handlers h with
    | .attempting _ _ t =>
      match s.db.slots t with
      | .aborted _ | .committed _ => some (s.setHandler h .rejected)
      | _ => none
    | _ => none

def placeStep (s : Service) (p : Nat) : PlaceEvent → Option Service
  | .lookup eventId amount lookup now =>
    match s.placing p with
    | .idle =>
      match lookup with
      | .unavailable => some (s.setPlacing p (.raised .lineProviderUnavailable))
      | .answered snapshot =>
        match checkBettable now snapshot with
        | .error error => some (s.setPlacing p (.raised error))
        | .ok () => some (s.setPlacing p (.checked eventId amount))
    | _ => none
  | .begin t clock now =>
    match s.placing p with
    | .checked eventId amount =>
      (s.begin t (.placeBet eventId amount) clock now).map fun s => s.setPlacing p (.opened t)
    | _ => none

/-- Only the tasks begin transactions. -/
def serve (s : Service) : Event → Option Service
  | .transaction (.begin ..) => none
  | .transaction action => (step s.db action).map fun db => { s with db }
  | .tick event => tickStep s event
  | .handler h event => handlerStep s h event
  | .place p event => placeStep s p event

end BetSettlement.BetMaker
