import BetSettlement.BetMaker.Messaging
import BetSettlement.Python.Finally

/-!
# Deliveries that are cut short

A task can be cancelled at any of its awaits, and `CancelledError` passes the handlers of `Exception`. A COMMIT
whose reply is lost has taken effect, though it raises. The broker delivers again what the handler leaves without
an answer.
-/

namespace BetSettlement.BetMaker
open Python Machine Std.Do

set_option mvcgen.warning false

def cancelledError : Exc := .other "CancelledError"

/-- `reply` is raised after a COMMIT has taken effect, and `rollback` after a ROLLBACK has. The cancellation comes in
the sleep before the attempt where `asleep` says so of its transaction. -/
structure Connection extends Server where
  reply : TxId → Option Exc
  rollback : TxId → Option Exc
  asleep : TxId → Bool

/-- What is raised where a delivery is acknowledged, or rejected. -/
structure Channel where
  acking : Option Exc := none
  rejecting : Option Exc := none

namespace Connection

/-- What the context manager raises at last. -/
def after (conn : Connection) (t : TxId) (raised : Option Exc) : Option Exc :=
  if raised.isSome then conn.rollback t else conn.reply t

/-- The context manager of `sessionmaker.begin()`. -/
def sessionExit (conn : Connection) (t : TxId) (exc : Option Exc) : Coroutine Unit := do
  BetMaker.sessionExit conn.toServer t exc
  awaits (conn.after t exc)

def aexit (conn : Connection) (exc : Option Exc) : Coroutine Unit := do
  match (← get).uow.cm with
  | none => throw .assertion
  | some t =>
    conn.sessionExit t exc
    modify fun w => { w with uow := {} }

def settleBetsForEvent (conn : Connection) (eventId : UUID) (terminalState : EventTerminalState)
    (settledVia : SettledVia) : Coroutine SettleResult :=
  asyncWith (PostgresUnitOfWork.aenter conn.toServer (.settleBetsForEvent eventId terminalState settledVia)) conn.aexit <|
    settlePending conn.toServer eventId
      (fun t => (.settleNoop eventId settledVia,
        { eventId, terminalState, settledCount := 0, settledBetIds := [], settledVia, settledAt := conn.clock t }))
      fun t betIds => (.settleCommitted eventId betIds settledVia (terminalToStatus terminalState),
        { eventId, terminalState, settledCount := betIds.length, settledBetIds := betIds, settledVia,
          settledAt := conn.clock t })

def cancelBetsForEvent (conn : Connection) (eventId : UUID) : Coroutine CancelResult := do
  let cancelledAt := conn.clock (← get).opened
  asyncWith (PostgresUnitOfWork.aenter conn.toServer (.cancelBetsForEvent eventId)) conn.aexit <|
    settlePending conn.toServer eventId
      (fun _ => (.cancelNoop eventId, { eventId, cancelledCount := 0, cancelledBetIds := [], cancelledAt }))
      fun _ betIds => (.cancelCommitted eventId betIds,
        { eventId, cancelledCount := betIds.length, cancelledBetIds := betIds, cancelledAt })

def settleWithRetry [Tenacity] (conn : Connection) (eventId : UUID) (terminalState : EventTerminalState)
    (settledVia : SettledVia) : Coroutine SettleResult :=
  retry 3 isTransient logBeforeSleep do
    awaits (if conn.asleep (← get).opened then some cancelledError else none)
    attempted (conn.settleBetsForEvent eventId terminalState settledVia)

end Connection

def Channel.reject (channel : Channel) : Coroutine Unit := do
  awaits channel.rejecting
  BetMaker.reject false

/-- The `except` clauses of `on_event_finished`. `CancelledError` is no `Exception`. -/
def Channel.dispose (channel : Channel) (exc : Exc) : Coroutine Unit :=
  match exc with
  | .validation | .unsupportedSchemaVersion | .dbapi .integrity _ => do
    log (.settlePoisonToDlq exc)
    channel.reject
  | _ =>
    if exc = cancelledError then throw exc
    else do
      log (.settleTransientExhausted exc)
      channel.reject

namespace Connection

/-- The `try` clause of `on_event_finished`. -/
def settle [Pydantic] [Tenacity] {V : Type} [Lax V] (conn : Connection) (channel : Channel) (payload : Dict String V) :
    Coroutine Unit := do
  match EventFinishedMessage.modelValidate payload with
  | none => throw .validation
  | some message =>
    if message.schemaVersion ≠ schemaVersionSupported then
      throw .unsupportedSchemaVersion
    modify fun w => { w with uow := {} }
    let _ ← conn.settleWithRetry message.eventId message.newState .consumer
    awaits channel.acking
    ack

def onEventFinished [Pydantic] [Tenacity] {V : Type} [Lax V] (conn : Connection) (channel : Channel)
    (payload : Dict String V) : Coroutine Unit :=
  tryCatch (conn.settle channel payload) channel.dispose

/-- Deliveries one after another, whatever escapes from the handler. -/
def handle [Pydantic] [Tenacity] {V : Type} [Lax V] (conn : Connection) :
    List (Channel × Dict String V) → Coroutine Unit
  | [] => pure ()
  | (channel, payload) :: rest => do
    tryCatch (conn.onEventFinished channel payload) fun _ => pure ()
    conn.handle rest

end Connection

/-! ### One call -/

/-- How a call has raised: it has rolled back, or it has settled and only the reply to its COMMIT is missing. -/
inductive Broken (conn : Connection) (start : World) (call : Call) (settlement : Settlement) (exc : Exc) (w : World) :
    Prop where
  | rolledBack {cause} (failed : Failed conn.toServer start call cause w)
      (surfaces : exc = cause ∨ conn.rollback start.opened = some exc)
  | committed (settled : Settled conn.toServer start call settlement w)
      (unfaulted : Unfaulted conn.toServer start settlement.eventId [.select, .update, .commit])
      (lost : conn.reply start.opened = some exc)

/-- How a call has returned. -/
structure Unbroken (conn : Connection) (start : World) (call : Call) (settlement : Settlement) (w : World) :
    Prop where
  settled : Settled conn.toServer start call settlement w
  unfaulted : Unfaulted conn.toServer start settlement.eventId [.select, .update, .commit]
  replied : conn.reply start.opened = none

section
variable {conn : Connection} {start w : World} {call : Call} {t : TxId}

theorem Settled.renew {server : Server} {settlement : Settlement} (settled : Settled server start call settlement w)
    (uow : PostgresUnitOfWork) : Settled server start call settlement { w with uow } :=
  ⟨⟨settled.ended.ready.renew _ _, settled.ended.transacted, settled.ended.opened, settled.ended.attempts,
    settled.ended.disposed⟩, settled.committed, settled.rows⟩

theorem Failed.renew {server : Server} {exc : Exc} (failed : Failed server start call exc w)
    (uow : PostgresUnitOfWork) : Failed server start call exc { w with uow } :=
  ⟨⟨failed.ended.ready.renew _ _, failed.ended.transacted, failed.ended.opened, failed.ended.attempts,
    failed.ended.disposed⟩, failed.aborted, failed.rows, failed.raises⟩

/-- Leaving the block, but for what is raised after it has been left. -/
theorem Connection.aexit_ends {exc : Option Exc} {P Q : World → Prop} {E : Exc → World → Prop}
    (held : ∀ w, P w → w.uow.cm = some t) (renews : ∀ w uow, Q w → Q { w with uow })
    (ends : ⦃fun w => ⌜P w⌝⦄ PostgresUnitOfWork.aexit conn.toServer exc
      ⦃post⟨fun _ w => ⌜Q w⌝, fun exc w => ⌜E exc w⌝⟩⦄) :
    ⦃fun w => ⌜P w⌝⦄ conn.aexit exc
      ⦃post⟨fun _ w => ⌜Q w ∧ conn.after t exc = none⌝,
        fun late w => ⌜E late w ∨ Q w ∧ conn.after t exc = some late⌝⟩⦄ := by
  rw [triple_iff] at ends ⊢
  intro w holds
  have ended := ends w holds
  unfold PostgresUnitOfWork.aexit at ended
  unfold Connection.aexit
  rw [bind_of_ok (get_eq w)] at ended ⊢
  simp only [held w holds] at ended ⊢
  cases left : BetMaker.sessionExit conn.toServer t exc w with
  | error late w' =>
    have exits : conn.sessionExit t exc w = .error late w' := bind_of_error left
    rw [bind_of_error left] at ended
    rw [bind_of_error exits]
    exact Or.inl ended
  | ok _ w' =>
    have exits : conn.sessionExit t exc w = awaits (conn.after t exc) w' := bind_of_ok left
    rw [bind_of_ok left] at ended
    cases raised : conn.after t exc with
    | none =>
      rw [raised, awaits_none] at exits
      rw [bind_of_ok exits]
      exact ⟨ended, rfl⟩
    | some late =>
      rw [raised, awaits_some] at exits
      rw [bind_of_error exits]
      exact Or.inr ⟨renews { w' with uow := {} } w'.uow ended, rfl⟩

/-- A call that returns has settled, and one that raises has settled too where the reply was lost. -/
theorem Connection.interactor_breaks {α : Type} (conn : Connection) (start : World) {settlement : Settlement}
    (settles : call.settlement = some settlement) (noop : TxId → LogEntry × α)
    (done : TxId → List UUID → LogEntry × α) :
    ⦃fun w => ⌜w = start ∧ Ready w⌝⦄
      asyncWith (PostgresUnitOfWork.aenter conn.toServer call) conn.aexit
        (settlePending conn.toServer settlement.eventId noop done)
      ⦃post⟨fun _ w => ⌜Unbroken conn start call settlement w⌝,
        fun exc w => ⌜Broken conn start call settlement exc w⌝⟩⦄ := by
  refine asyncWith_spec (aenter_spec conn.toServer call start)
    (settlePending_spec conn.toServer start settles noop done) (fun _ => ?_) fun exc => ?_
  · have leaves := Connection.aexit_ends (fun _ ⟨⟨_, _, during, _⟩, _⟩ => during.cm)
      (fun _ uow ⟨settled, unfaulted⟩ => ⟨settled.renew uow, unfaulted⟩)
      (@aexit_returned_spec conn.toServer start _ _ settles)
    rw [triple_iff] at leaves ⊢
    intro w returned
    have ended := leaves w returned
    cases left : conn.aexit none w with
    | ok _ w' =>
      rw [left] at ended
      obtain ⟨⟨settled, unfaulted⟩, replied⟩ := ended
      exact ⟨settled, unfaulted, replied⟩
    | error late w' =>
      rw [left] at ended
      rcases ended with failed | ⟨⟨settled, unfaulted⟩, lost⟩
      · exact .rolledBack failed (Or.inl rfl)
      · exact .committed settled unfaulted lost
  · have leaves := Connection.aexit_ends (fun _ ⟨⟨_, _, during⟩, _⟩ => during.cm)
      (fun _ uow (failed : Failed conn.toServer start call exc _) => failed.renew uow)
      (@aexit_raised_spec conn.toServer start call exc)
    rw [triple_iff] at leaves ⊢
    intro w raised
    have ended := leaves w raised
    cases left : conn.aexit (some exc) w with
    | ok _ w' =>
      rw [left] at ended
      exact .rolledBack ended.1 (Or.inl rfl)
    | error late w' =>
      rw [left] at ended
      rcases ended with failed | ⟨failed, lost⟩
      · exact .rolledBack failed (Or.inl rfl)
      · exact .rolledBack failed (Or.inr lost)

theorem Connection.settleBetsForEvent_breaks (conn : Connection) (start : World) (eventId : UUID)
    (terminalState : EventTerminalState) (settledVia : SettledVia) :
    ⦃fun w => ⌜w = start ∧ Ready w⌝⦄ conn.settleBetsForEvent eventId terminalState settledVia
      ⦃post⟨fun _ w => ⌜Unbroken conn start (.settleBetsForEvent eventId terminalState settledVia)
            { eventId, status := terminalToStatus terminalState, settledVia } w⌝,
        fun exc w => ⌜Broken conn start (.settleBetsForEvent eventId terminalState settledVia)
            { eventId, status := terminalToStatus terminalState, settledVia } exc w⌝⟩⦄ :=
  @Connection.interactor_breaks (.settleBetsForEvent eventId terminalState settledVia) SettleResult conn start _ rfl _ _

theorem Connection.cancelBetsForEvent_breaks (conn : Connection) (start : World) (eventId : UUID) :
    ⦃fun w => ⌜w = start ∧ Ready w⌝⦄ conn.cancelBetsForEvent eventId
      ⦃post⟨fun _ w => ⌜Unbroken conn start (.cancelBetsForEvent eventId)
            { eventId, status := .cancelled, settledVia := .reconciler } w⌝,
        fun exc w => ⌜Broken conn start (.cancelBetsForEvent eventId)
            { eventId, status := .cancelled, settledVia := .reconciler } exc w⌝⟩⦄ := by
  have ends := @Connection.interactor_breaks (.cancelBetsForEvent eventId) CancelResult conn start _ rfl
    (fun _ => (.cancelNoop eventId, ⟨eventId, 0, [], conn.clock start.opened⟩))
    fun _ betIds => (.cancelCommitted eventId betIds, ⟨eventId, betIds.length, betIds, conn.clock start.opened⟩)
  rw [triple_iff] at ends ⊢
  rintro w ⟨rfl, ready⟩
  exact ends w ⟨rfl, ready⟩

end

/-! ### The transaction that comes first -/

/-- What has become of a bet, where `first` names the transaction that settled its event. -/
def Bet.decidedBy (now : TxId → Instant) (first : UUID → Option (TxId × Settlement)) (bet : Bet) : Bet :=
  match first bet.eventId with
  | none => bet
  | some (t, settlement) => settlement.apply (now t) bet

/-- Since `start` an event has been settled by the first transaction that has committed for it, and by no other. -/
structure Firsts (now : TxId → Instant) (start : World) (first : UUID → Option (TxId × Settlement)) (w : World) :
    Prop where
  ready : Ready w
  opened : start.opened ≤ w.opened
  earliest : ∀ t tx, start.opened ≤ t → w.db.slots t = .committed tx →
    ∃ u settlement, first tx.call.eventId = some (u, settlement) ∧ u ≤ t
  committed : ∀ eventId t settlement, first eventId = some (t, settlement) → start.opened ≤ t ∧
    ∃ tx, w.db.slots t = .committed tx ∧ tx.call.settlement = some settlement ∧ tx.call.eventId = eventId
  rows : ∀ id, w.db.table.rows.lookup id = (start.db.table.rows.lookup id).map (Bet.decidedBy now first)

def Extends (first first' : UUID → Option (TxId × Settlement)) : Prop :=
  ∀ eventId t settlement, first eventId = some (t, settlement) → first' eventId = some (t, settlement)

section
variable {now : TxId → Instant} {first : UUID → Option (TxId × Settlement)} {start w w' : World} {call : Call}
  {settlement : Settlement} {server : Server}

theorem Firsts.begins (now : TxId → Instant) (ready : Ready w) : Firsts now w (fun _ => none) w where
  ready := ready
  opened := le_rfl
  earliest t tx later committed := by
    rw [ready.fresh t later] at committed
    cases committed
  committed _ _ _ none := by cases none
  rows _ := Option.map_id'.symm

theorem Firsts.same (firsts : Firsts now start first w) (db : w'.db = w.db) (opened : w'.opened = w.opened) :
    Firsts now start first w' where
  ready := ⟨db ▸ firsts.ready.inv, db ▸ firsts.ready.ended, by rw [db, opened]; exact firsts.ready.fresh⟩
  opened := opened ▸ firsts.opened
  earliest := db ▸ firsts.earliest
  committed := db ▸ firsts.committed
  rows := db ▸ firsts.rows

/-- The transactions of the past keep their numbers. -/
theorem Firsts.before (firsts : Firsts now start first w) {eventId : UUID} {t : TxId}
    (found : first eventId = some (t, settlement)) : t < w.opened := by
  obtain ⟨-, tx, committed, -⟩ := firsts.committed eventId t settlement found
  by_contra later
  rw [firsts.ready.fresh t (not_lt.mp later)] at committed
  cases committed

theorem Firsts.decides (firsts : Firsts now start first w) {eventId : UUID} {t : TxId}
    (found : first eventId = some (t, settlement)) : settlement.status ≠ .pending ∧ settlement.eventId = eventId := by
  obtain ⟨-, tx, -, settles, event⟩ := firsts.committed eventId t settlement found
  obtain ⟨decides, same, -⟩ := Call.settlement_decides settles
  exact ⟨decides, same.trans event⟩

theorem decidedBy_eventId (now : TxId → Instant) (first : UUID → Option (TxId × Settlement)) (bet : Bet) :
    (bet.decidedBy now first).eventId = bet.eventId := by
  unfold Bet.decidedBy
  split
  · rfl
  · exact Settlement.apply_eventId _ _ _

/-- A commit that is not the first changes nothing more. -/
theorem Firsts.decided_apply (firsts : Firsts now start first w) {t : TxId} {earlier : Settlement}
    (found : first settlement.eventId = some (t, earlier)) (late : Instant) (bet : Bet) :
    settlement.apply late (bet.decidedBy now first) = bet.decidedBy now first := by
  by_cases event : bet.eventId = settlement.eventId
  · obtain ⟨decides, same⟩ := firsts.decides found
    have decided : bet.decidedBy now first = earlier.apply (now t) bet := by
      rw [Bet.decidedBy, event, found]
    rw [decided]
    exact Settlement.apply_apply decides same.symm _ _ bet
  · exact Settlement.apply_other ((decidedBy_eventId now first bet).trans_ne event) late

theorem extends_update (undecided : first settlement.eventId = none) (t : TxId) :
    Extends first (Function.update first settlement.eventId (some (t, settlement))) := by
  intro eventId u earlier before
  have other : eventId ≠ settlement.eventId := fun same => by
    rw [same, undecided] at before
    cases before
  exact (Function.update_of_ne other _ _).trans before

theorem update_some {eventId : UUID} {t u : TxId} {earlier : Settlement}
    (has : Function.update first settlement.eventId (some (t, settlement)) eventId = some (u, earlier)) :
    eventId = settlement.eventId ∧ u = t ∧ earlier = settlement ∨ first eventId = some (u, earlier) := by
  by_cases same : eventId = settlement.eventId
  · subst same
    rw [Function.update_self] at has
    obtain ⟨rfl, rfl⟩ := Prod.mk.inj (Option.some.inj has)
    exact Or.inl ⟨rfl, rfl, rfl⟩
  · exact Or.inr ((Function.update_of_ne same _ _).symm.trans has)

theorem first_apply (undecided : first settlement.eventId = none) (t : TxId) (bet : Bet) :
    settlement.apply (now t) (bet.decidedBy now first) =
      bet.decidedBy now (Function.update first settlement.eventId (some (t, settlement))) := by
  by_cases event : bet.eventId = settlement.eventId
  · simp [Bet.decidedBy, event, undecided]
  · rw [Settlement.apply_other ((decidedBy_eventId now first bet).trans_ne event)]
    simp [Bet.decidedBy, event]

theorem Ended.slot {t : TxId} (ended : Ended w call w') (past : t ≠ w.opened) : w'.db.slots t = w.db.slots t :=
  ended.transacted.other past

theorem Firsts.fails (firsts : Firsts now start first w) {exc : Exc} (failed : Failed server w call exc w') :
    Firsts now start first w' where
  ready := failed.ended.ready
  opened := firsts.opened.trans (by rw [failed.ended.opened]; exact Nat.le_succ _)
  earliest t tx later committed := by
    by_cases own : t = w.opened
    · obtain ⟨tx', aborted⟩ := failed.aborted
      rw [own, aborted] at committed
      cases committed
    · exact firsts.earliest t tx later (failed.ended.slot own ▸ committed)
  committed eventId t settlement found := by
    rw [failed.ended.slot (firsts.before found).ne]
    exact firsts.committed eventId t settlement found
  rows := failed.rows ▸ firsts.rows

theorem Settled.called {settlement : Settlement} (settled : Settled server w call settlement w') (ready : Ready w)
    {tx : Transaction} (committed : w'.db.slots w.opened = .committed tx) : tx.call = call := by
  simpa [committed, Slot.tx] using settled.ended.transacted.call ready.inv

theorem Firsts.settles_again (firsts : Firsts now start first w) (settles : call.settlement = some settlement)
    (settled : Settled server w call settlement w') {u : TxId} {earlier : Settlement}
    (found : first settlement.eventId = some (u, earlier)) : Firsts now start first w' where
  ready := settled.ended.ready
  opened := firsts.opened.trans (by rw [settled.ended.opened]; exact Nat.le_succ _)
  earliest t tx later committed := by
    by_cases own : t = w.opened
    · subst own
      obtain ⟨-, event, -⟩ := Call.settlement_decides settles
      rw [settled.called firsts.ready committed, ← event]
      exact ⟨u, earlier, found, (firsts.before found).le⟩
    · exact firsts.earliest t tx later (settled.ended.slot own ▸ committed)
  committed eventId t earlier found := by
    rw [settled.ended.slot (firsts.before found).ne]
    exact firsts.committed eventId t earlier found
  rows id := by
    rw [settled.rows, firsts.rows, Option.map_map]
    exact congrArg (fun f => Option.map f _) (funext (firsts.decided_apply found _))

theorem Firsts.settles_first (firsts : Firsts now start first w) (settles : call.settlement = some settlement)
    (settled : Settled server w call settlement w') (clock : server.now = now)
    (undecided : first settlement.eventId = none) :
    Firsts now start (Function.update first settlement.eventId (some (w.opened, settlement))) w' where
  ready := settled.ended.ready
  opened := firsts.opened.trans (by rw [settled.ended.opened]; exact Nat.le_succ _)
  earliest t tx later committed := by
    by_cases own : t = w.opened
    · subst own
      obtain ⟨-, event, -⟩ := Call.settlement_decides settles
      refine ⟨w.opened, settlement, ?_, le_rfl⟩
      rw [settled.called firsts.ready committed, ← event, Function.update_self]
    · obtain ⟨u, earlier, before, early⟩ := firsts.earliest t tx later (settled.ended.slot own ▸ committed)
      exact ⟨u, earlier, extends_update undecided _ _ _ _ before, early⟩
  committed eventId t earlier has := by
    rcases update_some has with ⟨rfl, rfl, rfl⟩ | before
    · obtain ⟨-, event, -⟩ := Call.settlement_decides settles
      obtain ⟨tx, committed⟩ := settled.committed
      have mine := settled.called firsts.ready committed
      exact ⟨firsts.opened, tx, committed, mine ▸ settles, mine ▸ event.symm⟩
    · rw [settled.ended.slot (firsts.before before).ne]
      exact firsts.committed eventId t earlier before
  rows id := by
    rw [settled.rows, firsts.rows, Option.map_map, clock]
    exact congrArg (fun f => Option.map f _) (funext (first_apply undecided w.opened))

theorem Firsts.settles (firsts : Firsts now start first w) (settles : call.settlement = some settlement)
    (settled : Settled server w call settlement w') (clock : server.now = now) :
    ∃ first', Firsts now start first' w' ∧ Extends first first' ∧ (∃ t earlier,
        first' settlement.eventId = some (t, earlier)) ∧ ∀ eventId t earlier, first' eventId = some (t, earlier) →
      first eventId = some (t, earlier) ∨ t = w.opened ∧ earlier = settlement := by
  cases found : first settlement.eventId with
  | some earlier =>
    obtain ⟨u, earlier⟩ := earlier
    exact ⟨first, firsts.settles_again settles settled found, fun _ _ _ same => same, ⟨u, earlier, found⟩,
      fun _ _ _ same => Or.inl same⟩
  | none =>
    refine ⟨_, firsts.settles_first settles settled clock found, extends_update found _,
      ⟨w.opened, settlement, Function.update_self _ _ _⟩, fun eventId t earlier has => ?_⟩
    rcases update_some has with ⟨-, rfl, rfl⟩ | before
    · exact Or.inr ⟨rfl, rfl⟩
    · exact Or.inl before

end

/-! ### One delivery -/

/-- The exception comes from a statement of the transaction, from the reply to its COMMIT or from its rollback. -/
def Connection.Surfaces (conn : Connection) (t : TxId) (exc : Exc) : Prop :=
  conn.Raises t exc ∨ conn.reply t = some exc ∨ conn.rollback t = some exc

/-- The exception comes from one of these transactions, or from the sleep before the next. -/
def Connection.SurfacesIn (conn : Connection) (opened closed : TxId) (exc : Exc) : Prop :=
  (∃ t, opened ≤ t ∧ t < closed ∧ conn.Surfaces t exc) ∨ conn.asleep closed = true ∧ exc = cancelledError

/-- What some attempts of one settlement, begun in `before`, have come to. A transaction that has settled the event
is `owned`. -/
structure Proceeded (conn : Connection) (start : World) (first : UUID → Option (TxId × Settlement)) (before : World)
    (settlement : Settlement) (made : Nat) (owned : TxId → Prop) (first' : UUID → Option (TxId × Settlement))
    (w : World) : Prop where
  firsts : Firsts conn.now start first' w
  further : Extends first first'
  adds : ∀ eventId t earlier, first' eventId = some (t, earlier) →
    first eventId = some (t, earlier) ∨ before.opened ≤ t ∧ t < w.opened ∧ earlier = settlement ∧ owned t
  disposed : w.disposed = before.disposed
  opens : before.opened ≤ w.opened
  opened : w.opened ≤ before.opened + made

section
variable {conn : Connection} {first first' : UUID → Option (TxId × Settlement)} {start before w w' : World} {call : Call}
  {settlement : Settlement} {made : Nat} {owned : TxId → Prop}

/-- The reply to the COMMIT is missing. -/
def Connection.Lost (conn : Connection) (t : TxId) : Prop := (conn.reply t).isSome

theorem Proceeded.same (proceeded : Proceeded conn start first before settlement made owned first' w)
    (db : w'.db = w.db) (opened : w'.opened = w.opened) (disposed : w'.disposed = w.disposed) :
    Proceeded conn start first before settlement made owned first' w' :=
  ⟨proceeded.firsts.same db opened, proceeded.further, opened ▸ proceeded.adds, disposed.trans proceeded.disposed,
    opened ▸ proceeded.opens, opened ▸ proceeded.opened⟩

theorem Proceeded.settles (proceeded : Proceeded conn start first before settlement made conn.Lost first' w)
    (settles : call.settlement = some settlement) (settled : Settled conn.toServer w call settlement w')
    (kept : ∀ t, conn.Lost t → owned t) (own : owned w.opened) :
    ∃ first'', Proceeded conn start first before settlement (made + 1) owned first'' w' ∧
      ∃ t earlier, first'' settlement.eventId = some (t, earlier) := by
  obtain ⟨first'', firsts, further, found, adds⟩ := proceeded.firsts.settles settles settled rfl
  have opened : w'.opened = w.opened + 1 := settled.ended.opened
  refine ⟨first'', ⟨firsts, fun eventId t earlier has => further _ _ _ (proceeded.further eventId t earlier has), ?_,
    settled.ended.disposed.trans proceeded.disposed, ?_, ?_⟩, found⟩
  · intro eventId t earlier has
    rcases adds eventId t earlier has with earlier | ⟨rfl, new⟩
    · refine (proceeded.adds _ _ _ earlier).imp_right fun ⟨opens, closes, same, lost⟩ => ⟨opens, ?_, same, kept _ lost⟩
      rw [opened]
      exact Nat.lt_succ_of_lt closes
    · exact Or.inr ⟨proceeded.opens, opened ▸ Nat.lt_succ_self _, new, own⟩
  · exact proceeded.opens.trans (opened ▸ Nat.le_succ _)
  · rw [opened]
    exact Nat.succ_le_succ proceeded.opened

theorem Broken.surfaces {exc : Exc} (broken : Broken conn w call settlement exc w') : conn.Surfaces w.opened exc := by
  cases broken with
  | rolledBack failed surfaces =>
    rcases surfaces with rfl | lost
    · exact Or.inl failed.raises
    · exact Or.inr (Or.inr lost)
  | committed settled unfaulted lost => exact Or.inr (Or.inl lost)

theorem Broken.opened {exc : Exc} (broken : Broken conn w call settlement exc w') : w'.opened = w.opened + 1 := by
  cases broken with
  | rolledBack failed surfaces => exact failed.ended.opened
  | committed settled unfaulted lost => exact settled.ended.opened

theorem Proceeded.breaks (proceeded : Proceeded conn start first before settlement made conn.Lost first' w)
    (settles : call.settlement = some settlement) {exc : Exc} (broken : Broken conn w call settlement exc w') :
    ∃ first'', Proceeded conn start first before settlement (made + 1) conn.Lost first'' w' := by
  have opened := broken.opened
  cases broken with
  | rolledBack failed surfaces =>
    refine ⟨first', proceeded.firsts.fails failed, proceeded.further, fun eventId t earlier has => ?_,
      failed.ended.disposed.trans proceeded.disposed, proceeded.opens.trans (opened ▸ Nat.le_succ _), ?_⟩
    · refine (proceeded.adds _ _ _ has).imp_right fun ⟨opens, closes, same, lost⟩ => ⟨opens, ?_, same, lost⟩
      rw [opened]
      exact Nat.lt_succ_of_lt closes
    · rw [opened]
      exact Nat.succ_le_succ proceeded.opened
  | committed settled unfaulted lost =>
    obtain ⟨first'', more, -⟩ := proceeded.settles settles settled (fun _ => id)
      (Option.isSome_iff_exists.mpr ⟨_, lost⟩)
    exact ⟨first'', more⟩

theorem Proceeded.more (proceeded : Proceeded conn start first before settlement made owned first' w) {bound : Nat}
    (few : made ≤ bound) : Proceeded conn start first before settlement bound owned first' w :=
  ⟨proceeded.firsts, proceeded.further, proceeded.adds, proceeded.disposed, proceeded.opens,
    proceeded.opened.trans (Nat.add_le_add_left few _)⟩

theorem settleWithRetry_proceeds [Tenacity] (conn : Connection) (start : World)
    (first : UUID → Option (TxId × Settlement)) (before : World) (eventId : UUID) (terminalState : EventTerminalState)
    (settledVia : SettledVia) :
    ⦃fun w => ⌜w.db = before.db ∧ w.opened = before.opened ∧ w.disposed = before.disposed ∧
        Firsts conn.now start first before⌝⦄
      conn.settleWithRetry eventId terminalState settledVia
      ⦃post⟨fun _ w => ⌜∃ first', Proceeded conn start first before
            { eventId, status := terminalToStatus terminalState, settledVia } 3 (fun _ => True) first' w ∧
          ∃ t earlier, first' eventId = some (t, earlier)⌝,
        fun exc w => ⌜conn.SurfacesIn before.opened w.opened exc ∧ ∃ first', Proceeded conn start first before
            { eventId, status := terminalToStatus terminalState, settledVia } 3 conn.Lost first' w⌝⟩⦄ := by
  have tries := @attempt_spec Exc World SettleResult _ 3 isTransient logBeforeSleep
    (do
      awaits (if conn.asleep (← get).opened then some cancelledError else none)
      attempted (conn.settleBetsForEvent eventId terminalState settledVia))
    (fun n w => ∃ made first', n = made + 1 ∧ made < 3 ∧ Proceeded conn start first before
      { eventId, status := terminalToStatus terminalState, settledVia } made conn.Lost first' w)
    (fun _ w => ∃ first', Proceeded conn start first before
      { eventId, status := terminalToStatus terminalState, settledVia } 3 (fun _ => True) first' w ∧
        ∃ t earlier, first' eventId = some (t, earlier))
    (fun exc w => conn.SurfacesIn before.opened w.opened exc ∧ ∃ first', Proceeded conn start first before
      { eventId, status := terminalToStatus terminalState, settledVia } 3 conn.Lost first' w) ?_ 1
  · rw [triple_iff] at tries ⊢
    rintro w ⟨db, opened, disposed, firsts⟩
    refine tries w ⟨0, first, rfl, by decide, firsts.same db opened, fun _ _ _ same => same, fun _ _ _ => Or.inl,
      disposed, opened.ge, opened.le⟩
  · intro n
    rw [triple_iff]
    rintro w ⟨made, first', rfl, few, proceeded⟩
    rw [bind_of_ok (get_eq w)]
    by_cases asleep : conn.asleep w.opened = true
    · rw [if_pos asleep, bind_of_error (awaits_some cancelledError w)]
      change if isTransient cancelledError = true ∧ _ then _ else _
      rw [if_neg (by simp [isTransient, cancelledError])]
      exact ⟨Or.inr ⟨asleep, rfl⟩, first', proceeded.more few.le⟩
    · rw [if_neg asleep, bind_of_ok (awaits_none w)]
      have ended := triple_iff.mp (conn.settleBetsForEvent_breaks w eventId terminalState settledVia) w
        ⟨rfl, proceeded.firsts.ready⟩
      unfold attempted
      cases called : conn.settleBetsForEvent eventId terminalState settledVia w with
      | ok result w' =>
        rw [called] at ended
        obtain ⟨first'', more, found⟩ := proceeded.settles rfl ended.settled (fun _ _ => trivial) trivial
        exact ⟨first'', (more.more few).same rfl rfl rfl, found⟩
      | error exc w' =>
        rw [called] at ended
        obtain ⟨first'', more⟩ := proceeded.breaks rfl ended
        change if isTransient exc = true ∧ _ then _ else _
        by_cases again : isTransient exc = true ∧ made + 1 < 3
        · rw [if_pos again]
          exact ⟨made + 1, first'', rfl, again.2, more.same rfl rfl rfl⟩
        · rw [if_neg again]
          refine ⟨Or.inl ⟨w.opened, proceeded.opens, ?_, ended.surfaces⟩, first'', (more.more few).same rfl rfl rfl⟩
          exact ended.opened ▸ Nat.lt_succ_self _

theorem dispose_ends (channel : Channel) (exc : Exc) (w : World) :
    exc = cancelledError ∧ channel.dispose exc w = .error cancelledError w ∨ ∃ logged,
      channel.dispose exc w = .ok () { w with logged, disposed := w.disposed ++ [.reject false] } ∨
        channel.rejecting.isSome ∧ ∃ late, channel.dispose exc w = .error late { w with logged } := by
  by_cases cancelled : exc = cancelledError
  · subst cancelled
    exact Or.inl ⟨rfl, rfl⟩
  · obtain ⟨entry, disposes⟩ : ∃ entry, channel.dispose exc = (log entry >>= fun _ => channel.reject) := by
      unfold Channel.dispose
      split
      · exact ⟨_, rfl⟩
      · exact ⟨_, rfl⟩
      · exact ⟨_, rfl⟩
      · rw [if_neg cancelled]
        exact ⟨_, rfl⟩
    refine Or.inr ⟨w.logged ++ [entry], ?_⟩
    rw [disposes, log, bind_of_ok (modify_eq _ w), Channel.reject]
    cases channel.rejecting with
    | none => exact Or.inl rfl
    | some late => exact Or.inr ⟨rfl, late, rfl⟩

variable [Pydantic] {V : Type} [Lax V]

/-- What a delivery comes to, as `first` has it: it has opened the transactions from `opened` to `closed`. The broker
has got no answer where there is no `outcome`. -/
structure Resolved (conn : Connection) (channel : Channel) (payload : Dict String V)
    (first : UUID → Option (TxId × Settlement)) (opened closed : TxId) (outcome : Option Disposition) : Prop where
  opens : opened ≤ closed
  few : closed ≤ opened + 3
  final : outcome ≠ some (.reject true)
  acked : outcome = some .ack → ∃ message t settlement, Accepted payload message ∧
    first message.eventId = some (t, settlement)
  rejected : outcome = some (.reject false) → (∀ message, ¬ Accepted payload message) ∨ channel.acking.isSome ∨
    ∃ exc, conn.SurfacesIn opened closed exc
  unanswered : outcome = none → channel.rejecting.isSome ∨ channel.acking = some cancelledError ∨
    conn.SurfacesIn opened closed cancelledError

theorem Resolved.later {channel : Channel} {payload : Dict String V} {opened closed : TxId}
    {outcome : Option Disposition} (resolved : Resolved conn channel payload first opened closed outcome)
    (further : Extends first first') : Resolved conn channel payload first' opened closed outcome where
  opens := resolved.opens
  few := resolved.few
  final := resolved.final
  acked ack := by
    obtain ⟨message, t, settlement, accepted, found⟩ := resolved.acked ack
    exact ⟨message, t, settlement, accepted, further _ _ _ found⟩
  rejected := resolved.rejected
  unanswered := resolved.unanswered

/-- The settlement comes from this delivery, which was acknowledged if neither the reply to its COMMIT was lost nor
its acknowledgement has raised. -/
def Attributed (conn : Connection) (channel : Channel) (payload : Dict String V) (outcome : Option Disposition)
    (t : TxId) (settlement : Settlement) : Prop :=
  (∃ message, Accepted payload message ∧ settlement = consumed message) ∧
    (outcome = some .ack ∨ channel.acking.isSome ∨ conn.Lost t)

/-- How a delivery has ended. -/
structure Answered (conn : Connection) (channel : Channel) (payload : Dict String V) (start : World)
    (first : UUID → Option (TxId × Settlement)) (before : World) (outcome : Option Disposition)
    (first' : UUID → Option (TxId × Settlement)) (w : World) : Prop where
  firsts : Firsts conn.now start first' w
  further : Extends first first'
  adds : ∀ eventId t settlement, first' eventId = some (t, settlement) → first eventId = some (t, settlement) ∨
    before.opened ≤ t ∧ t < w.opened ∧ Attributed conn channel payload outcome t settlement
  disposed : w.disposed = before.disposed ++ outcome.toList
  resolved : Resolved conn channel payload first' before.opened w.opened outcome

theorem Connection.settle_accepted [Tenacity] (conn : Connection) (channel : Channel) {payload : Dict String V}
    {message : EventFinishedMessage} (accepted : Accepted payload message) (w : World) :
    conn.settle channel payload w = (do
      let _ ← conn.settleWithRetry message.eventId message.newState .consumer
      awaits channel.acking
      ack : Coroutine Unit) { w with uow := {} } := by
  unfold Connection.settle
  simp only [accepted.1, accepted.2, ne_eq, not_true_eq_false, if_false]
  exact bind_of_ok (modify_eq _ w)

theorem Connection.settle_refused [Tenacity] (conn : Connection) (channel : Channel) {payload : Dict String V}
    (refused : ∀ message, ¬ Accepted payload message) (w : World) :
    ∃ exc, exc ≠ cancelledError ∧ conn.settle channel payload w = .error exc w := by
  unfold Connection.settle
  cases valid : EventFinishedMessage.modelValidate payload with
  | none => exact ⟨.validation, by simp [cancelledError], rfl⟩
  | some message =>
    have unsupported : message.schemaVersion ≠ schemaVersionSupported :=
      fun supported => refused message ⟨valid, supported⟩
    simp only [unsupported, ne_eq, not_false_eq_true, if_true]
    exact ⟨.unsupportedSchemaVersion, by simp [cancelledError], rfl⟩

/-- What the body of the `try` raises comes from the payload, from the acknowledgement or from a transaction. -/
theorem settle_raises [Tenacity] {channel : Channel} {payload : Dict String V} {exc : Exc} (ready : Ready w)
    (raises : conn.settle channel payload w = .error exc w') :
    exc ≠ cancelledError ∧ (∀ message, ¬ Accepted payload message) ∨ channel.acking = some exc ∨
      conn.SurfacesIn w.opened w'.opened exc := by
  by_cases accepted : ∃ message, Accepted payload message
  · obtain ⟨message, accepted⟩ := accepted
    have retries := triple_iff.mp (settleWithRetry_proceeds conn w (fun _ => none) w message.eventId message.newState
      .consumer) { w with uow := {} } ⟨rfl, rfl, rfl, Firsts.begins conn.now ready⟩
    rw [conn.settle_accepted channel accepted] at raises
    cases called : conn.settleWithRetry message.eventId message.newState .consumer { w with uow := {} } with
    | error exc t =>
      rw [called] at retries
      rw [bind_of_error called] at raises
      cases raises
      exact Or.inr (Or.inr retries.1)
    | ok result t =>
      rw [bind_of_ok called] at raises
      cases acking : channel.acking with
      | none =>
        rw [acking, bind_of_ok (awaits_none t)] at raises
        cases raises
      | some exc =>
        rw [acking, bind_of_error (awaits_some exc t)] at raises
        cases raises
        exact Or.inr (Or.inl rfl)
  · have refused := not_exists.mp accepted
    obtain ⟨exc', other, ends⟩ := conn.settle_refused channel refused w
    obtain ⟨rfl, -⟩ := EStateM.Result.error.inj (ends.symm.trans raises)
    exact Or.inl ⟨other, refused⟩

/-- The `except` clauses answer the broker, unless the exception passes them or the answer itself raises. -/
theorem disposes [Tenacity] {channel : Channel} {payload : Dict String V} {exc : Exc} (ready : Ready before)
    (raised : conn.settle channel payload before = .error exc w) (opens : before.opened ≤ w.opened)
    (few : w.opened ≤ before.opened + 3)
    (proceeded : ∀ outcome : Option Disposition, outcome ≠ some .ack →
      Resolved conn channel payload first' before.opened w.opened outcome →
      ∀ w', w'.db = w.db → w'.opened = w.opened → w'.disposed = w.disposed ++ outcome.toList →
        Answered conn channel payload start first before outcome first' w') :
    ∃ outcome w', tryCatch (conn.onEventFinished channel payload) (fun _ => pure ()) before = .ok () w' ∧
      Answered conn channel payload start first before outcome first' w' := by
  have catches : conn.onEventFinished channel payload before = channel.dispose exc w := tryCatch_of_error raised
  have source := settle_raises ready raised
  rcases dispose_ends channel exc w with ⟨cancelled, passes⟩ | ⟨logged, rejects | ⟨late, exc', escapes⟩⟩
  · rw [passes] at catches
    subst cancelled
    have unanswered := source.resolve_left fun other => other.1 rfl
    exact ⟨none, w, tryCatch_of_error catches, proceeded none (by simp)
      ⟨opens, few, by simp, by simp, by simp, fun _ => Or.inr unanswered⟩ w rfl rfl (List.append_nil _).symm⟩
  · rw [rejects] at catches
    have rejected : (∀ message, ¬ Accepted payload message) ∨ channel.acking.isSome ∨
        ∃ exc, conn.SurfacesIn before.opened w.opened exc := by
      rcases source with ⟨-, refused⟩ | acking | surfaces
      · exact Or.inl refused
      · exact Or.inr (Or.inl (by simp [acking]))
      · exact Or.inr (Or.inr ⟨exc, surfaces⟩)
    exact ⟨some (.reject false), _, tryCatch_of_ok catches, proceeded _ (by simp)
      ⟨opens, few, by simp, by simp, fun _ => rejected, by simp⟩ _ rfl rfl rfl⟩
  · rw [escapes] at catches
    exact ⟨none, _, tryCatch_of_error catches, proceeded none (by simp)
      ⟨opens, few, by simp, by simp, by simp, fun _ => Or.inl late⟩ _ rfl rfl (List.append_nil _).symm⟩

omit [Pydantic] in
theorem Firsts.settled (firsts : Firsts now start first w) {eventId : UUID} {t : TxId}
    (found : first eventId = some (t, settlement)) {id : UUID} {bet : Bet} (row : w.db.table.rows.lookup id = some bet)
    (event : bet.eventId = eventId) : bet.status ≠ .pending := by
  rw [firsts.rows] at row
  obtain ⟨earlier, -, rfl⟩ := Option.map_eq_some_iff.mp row
  rw [decidedBy_eventId] at event
  obtain ⟨decides, same⟩ := firsts.decides found
  have decided : earlier.decidedBy now first = settlement.apply (now t) earlier := by
    rw [Bet.decidedBy, event, found]
  rw [decided]
  by_cases pending : getPendingLocked settlement.eventId earlier = true
  · rwa [Settlement.apply, if_pos pending]
  · rw [Settlement.apply, if_neg pending]
    exact fun still => pending (getPendingLocked_iff.mpr ⟨event.trans same.symm, still⟩)

end

/-! ### Without interruptions -/

/-- Replies arrive, and no cancellation strikes. -/
structure Connection.Reliable (conn : Connection) : Prop where
  reply : ∀ t, conn.reply t = none
  rollback : ∀ t, conn.rollback t = none
  asleep : ∀ t, conn.asleep t = false
  uncancelled : ∀ t statement, conn.fault t statement ≠ some cancelledError

section
variable {conn : Connection}

theorem Connection.Reliable.surfaces (reliable : conn.Reliable) (t : TxId) : ¬ conn.Surfaces t cancelledError := by
  rintro (⟨statement, fault⟩ | reply | rollback)
  · exact reliable.uncancelled t statement fault
  · simp [reliable.reply] at reply
  · simp [reliable.rollback] at rollback

theorem Connection.Reliable.aexit (reliable : conn.Reliable) :
    conn.aexit = PostgresUnitOfWork.aexit conn.toServer := by
  have nothing : ∀ t exc, conn.after t exc = none := by
    intro t exc
    unfold Connection.after
    split
    · exact reliable.rollback t
    · exact reliable.reply t
  have exits : ∀ t exc, conn.sessionExit t exc = BetMaker.sessionExit conn.toServer t exc := by
    intro t exc
    unfold Connection.sessionExit
    rw [nothing]
    exact bind_pure_unit
  funext exc
  unfold Connection.aexit
  simp only [exits]
  rfl

theorem Connection.Reliable.settleBetsForEvent (reliable : conn.Reliable) (eventId : UUID)
    (terminalState : EventTerminalState) (settledVia : SettledVia) :
    conn.settleBetsForEvent eventId terminalState settledVia =
      BetMaker.settleBetsForEvent conn.toServer eventId terminalState settledVia := by
  unfold Connection.settleBetsForEvent
  rw [reliable.aexit]
  rfl

theorem Connection.Reliable.cancelBetsForEvent (reliable : conn.Reliable) (eventId : UUID) :
    conn.cancelBetsForEvent eventId = BetMaker.cancelBetsForEvent conn.toServer eventId := by
  unfold Connection.cancelBetsForEvent
  rw [reliable.aexit]
  rfl

theorem Connection.Reliable.settleWithRetry [Tenacity] (reliable : conn.Reliable) (eventId : UUID)
    (terminalState : EventTerminalState) (settledVia : SettledVia) :
    conn.settleWithRetry eventId terminalState settledVia =
      BetMaker.settleWithRetry conn.toServer eventId terminalState settledVia := by
  unfold Connection.settleWithRetry BetMaker.settleWithRetry
  congr 1
  funext w
  rw [bind_of_ok (get_eq w), reliable.asleep, if_neg (by decide), bind_of_ok (awaits_none w),
    reliable.settleBetsForEvent]

variable [Pydantic] [Tenacity] {V : Type} [Lax V]

/-- Then the handler is the one that knows nothing of interruptions. -/
theorem onEventFinished_reliable (reliable : conn.Reliable) (payload : Dict String V) {w : World} (ready : Ready w) :
    conn.onEventFinished {} payload w = BetMaker.onEventFinished conn.toServer payload w := by
  have rejects : Channel.reject {} = BetMaker.reject false := pure_bind () _
  have acks : (do awaits none; ack : Coroutine Unit) = ack := pure_bind () _
  have body : conn.settle {} payload = (do
      match EventFinishedMessage.modelValidate payload with
      | none => throw .validation
      | some message =>
        if message.schemaVersion ≠ schemaVersionSupported then
          throw .unsupportedSchemaVersion
        modify fun w => { w with uow := {} }
        let _ ← BetMaker.settleWithRetry conn.toServer message.eventId message.newState .consumer
        ack : Coroutine Unit) := by
    unfold Connection.settle
    simp only [reliable.settleWithRetry, acks]
  cases settles : conn.settle {} payload w with
  | ok _ w' =>
    rw [Connection.onEventFinished, tryCatch_of_ok settles]
    rw [body] at settles
    exact (tryCatch_of_ok settles).symm
  | error exc w' =>
    have passed : exc ≠ cancelledError := by
      rintro rfl
      rcases settle_raises ready settles with ⟨other, -⟩ | acking | ⟨t, -, -, surfaces⟩ | ⟨asleep, -⟩
      · exact other rfl
      · cases acking
      · exact reliable.surfaces t surfaces
      · simp [reliable.asleep] at asleep
    rw [Connection.onEventFinished, tryCatch_of_error settles]
    rw [body] at settles
    have caught : BetMaker.onEventFinished conn.toServer payload w = _ := tryCatch_of_error settles
    unfold Channel.dispose
    rw [rejects, if_neg passed]
    exact caught.symm

end

end BetSettlement.BetMaker
