import BetSettlement.BetMaker.Attempt
import BetSettlement.BetMaker.Facades
import BetSettlement.BetMaker.Serving

/-!
# One tick on its own

`_run_tick` takes the events of its work-list one after another, each in a transaction of its own.
What the iteration of one event raises is logged, and the next one goes on.
-/

namespace BetSettlement.BetMaker
open Python Machine Std.Do

set_option mvcgen.warning false

/-- What `get_event` returns or raises for each event. -/
abbrev EventLookup := UUID → Except Exn (Option EventSnapshot)

/-- How the transaction of each event ends, whatever number it has, and what both clocks read in it. -/
structure EventServer where
  fault : UUID → Statement → Option Exc
  now : TxId → Instant
  clock : TxId → Instant

def EventServer.forEvent (servers : EventServer) (eventId : UUID) : Server :=
  { fault := fun _ => servers.fault eventId, now := servers.now, clock := servers.clock }

/-- The task of the reconciler. `looked` lists the lookups that it has made. -/
structure Reconciler where
  world : World
  looked : List UUID := []

namespace Reconciler

def inWorld {α : Type} (fn : Coroutine α) : EStateM Exn Reconciler α := fun r =>
  match fn r.world with
  | .ok a w => .ok a { r with world := w }
  | .error exc w => .error (.database exc) { r with world := w }

def getEvent (lookup : EventLookup) (eventId : UUID) : EStateM Exn Reconciler (Option EventSnapshot) := do
  modify fun r => { r with looked := r.looked ++ [eventId] }
  raiseFrom (lookup eventId)

/-- An interactor with a unit of work of its own, and the log line after it. -/
def inUnitOfWork {α : Type} (fn : Coroutine α) (entry : LogEntry) : EStateM Exn Reconciler Unit :=
  inWorld do
    modify fun w => { w with uow := {} }
    let _ ← fn
    log entry

def settleEvent (server : Server) (eventId : UUID) (terminalState : EventTerminalState) : EStateM Exn Reconciler Unit :=
  inUnitOfWork (settleBetsForEvent server eventId terminalState .reconciler) (.eventSettled eventId terminalState)

def reconcileEvent (server : Server) (lookup : EventLookup) (eventId : UUID) : EStateM Exn Reconciler Unit := do
  match ← getEvent lookup eventId with
  | none => inUnitOfWork (cancelBetsForEvent server eventId) (.eventCancelled eventId)
  | some snapshot =>
    match snapshot.state with
    | .finishedWin => settleEvent server eventId .finishedWin
    | .finishedLose => settleEvent server eventId .finishedLose
    | .new => inWorld (log (.eventStillNew eventId))

/-- `readPending` is the SELECT of the work-list. -/
def runTick (servers : EventServer) (lookup : EventLookup) (readPending : Database → Except Exn (List UUID)) :
    EStateM Exn Reconciler Unit := do
  let eventIds ← raiseFrom (readPending (← get).world.db)
  if eventIds.isEmpty then
    inWorld (log .tickNoop)
  else
    eventIds.forM fun eventId =>
      tryCatch (reconcileEvent (servers.forEvent eventId) lookup eventId) fun _ => inWorld (log (.eventFailed eventId))

end Reconciler

/-! ### The tick as a map -/

/-- What an answer makes of the PENDING bets on its event. -/
def verdict : Except Exn (Option EventSnapshot) → Option BetStatus
  | .ok none => some .cancelled
  | .ok (some snapshot) =>
    match snapshot.state with
    | .finishedWin => some .won
    | .finishedLose => some .lost
    | .new => none
  | .error _ => none

def EventServer.succeeds (servers : EventServer) (eventId : UUID) : Bool :=
  [Statement.select, .update, .commit].all fun statement => (servers.fault eventId statement).isNone

/-- The bet after the tick. -/
def reconciled (servers : EventServer) (lookup : EventLookup) (now : Instant) (bet : Bet) : Bet :=
  if bet.status = .pending ∧ servers.succeeds bet.eventId = true then
    match verdict (lookup bet.eventId) with
    | some status => { bet with status, settledAt := some now, settledVia := some .reconciler, updatedAt := now }
    | none => bet
  else bet

section
variable {servers : EventServer} {lookup : EventLookup} {now : Instant} {bet : Bet} {eventId : UUID}

theorem reconciled_decided (decided : bet.status ≠ .pending) : reconciled servers lookup now bet = bet :=
  if_neg fun both => decided both.1

theorem reconciled_fails (fails : servers.succeeds bet.eventId = false) : reconciled servers lookup now bet = bet := by
  simp [reconciled, fails]

theorem reconciled_skips (skips : verdict (lookup bet.eventId) = none) : reconciled servers lookup now bet = bet := by
  simp [reconciled, skips]

theorem reconciled_settles {status : BetStatus} (pending : bet.status = .pending)
    (succeeds : servers.succeeds bet.eventId = true) (decides : verdict (lookup bet.eventId) = some status) :
    reconciled servers lookup now bet = Settlement.update ⟨bet.eventId, status, .reconciler⟩ now bet := by
  simp [reconciled, Settlement.update, pending, succeeds, decides]

theorem reconciled_later : bet.Later (reconciled servers lookup now bet) := by
  by_cases pending : bet.status = .pending
  · unfold reconciled
    split
    · split
      · exact ⟨rfl, rfl, rfl, rfl, fun decided => absurd pending decided⟩
      · exact .refl bet
    · exact .refl bet
  · rw [reconciled_decided pending]
    exact .refl bet

theorem Unfaulted.succeeds {w : World} (unfaulted : Unfaulted (servers.forEvent eventId) w eventId
    [.select, .update, .commit]) (pending : ∃ id, w.Pending eventId id) : servers.succeeds eventId = true := by
  have all := unfaulted pending
  unfold EventServer.succeeds
  rw [List.all_eq_true]
  intro statement member
  exact Option.isNone_iff_eq_none.mpr (all statement member)

theorem Server.Raises.fails {t : TxId} {exc : Exc} (raises : (servers.forEvent eventId).Raises t exc) :
    servers.succeeds eventId = false := by
  obtain ⟨statement, fault⟩ := raises
  have raised : servers.fault eventId statement = some exc := fault
  cases statement <;> simp [EventServer.succeeds, raised]

end

/-! ### One iteration -/

/-- The interactor that an answer calls for. -/
def EventLookup.call (lookup : EventLookup) (eventId : UUID) : Option Call :=
  (lookup eventId).toOption.bind (BetMaker.reconcileEvent eventId)

/-- The bets on this event have been dealt with, and no others. -/
structure Iterated (servers : EventServer) (lookup : EventLookup) (start : World) (eventId : UUID) (w : World) :
    Prop where
  ready : Ready w
  idle : lookup.call eventId = none → w.db = start.db
  transacted : ∀ call, lookup.call eventId = some call → Transacted start.db start.opened call w.db
  rows : ∃ now, ∀ id, w.db.table.rows.lookup id = (start.db.table.rows.lookup id).map fun bet =>
    if bet.eventId = eventId then reconciled servers lookup now bet else bet

section
variable {servers : EventServer} {lookup : EventLookup} {start w : World} {eventId : UUID}

theorem reconciled_kept (rows : w.db.table.rows = start.db.table.rows)
    (kept : ∀ now bet, bet.eventId = eventId → reconciled servers lookup now bet = bet) :
    ∃ now, ∀ id, w.db.table.rows.lookup id = (start.db.table.rows.lookup id).map fun bet =>
      if bet.eventId = eventId then reconciled servers lookup now bet else bet := by
  refine ⟨0, fun id => ?_⟩
  rw [rows]
  cases start.db.table.rows.lookup id with
  | none => rfl
  | some bet =>
    by_cases own : bet.eventId = eventId
    · simp [own, kept 0 bet own]
    · simp [own]

theorem iterated_skips (ready : Ready w) (same : w.db = start.db) (calls : lookup.call eventId = none)
    (skips : verdict (lookup eventId) = none) : Iterated servers lookup start eventId w where
  ready := ready
  idle _ := same
  transacted call other := by cases calls.symm.trans other
  rows := reconciled_kept (congrArg (fun db => db.table.rows) same) fun now bet own => reconciled_skips (own ▸ skips)

theorem Settled.iterated {call : Call} {status : BetStatus} (decides : verdict (lookup eventId) = some status)
    (calls : lookup.call eventId = some call)
    (settled : Settled (servers.forEvent eventId) start call ⟨eventId, status, .reconciler⟩ w)
    (unfaulted : Unfaulted (servers.forEvent eventId) start eventId [.select, .update, .commit]) :
    Iterated servers lookup start eventId w where
  ready := settled.ended.ready
  idle nothing := by cases calls.symm.trans nothing
  transacted other same := by
    obtain rfl := Option.some.inj (calls.symm.trans same)
    exact settled.ended.transacted
  rows := by
    refine ⟨servers.now start.opened, fun id => ?_⟩
    rw [settled.rows]
    cases row : start.db.table.rows.lookup id with
    | none => rfl
    | some bet =>
      simp only [Option.map_some, Option.some.injEq, Settlement.apply]
      by_cases own : bet.eventId = eventId
      · subst own
        by_cases pending : bet.status = .pending
        · have found : getPendingLocked bet.eventId bet = true := getPendingLocked_iff.mpr ⟨rfl, pending⟩
          rw [if_pos found, if_pos rfl, reconciled_settles pending (unfaulted.succeeds ⟨id, bet, row, found⟩) decides]
          rfl
        · rw [if_neg fun found => pending (getPendingLocked_iff.mp found).2, if_pos rfl, reconciled_decided pending]
      · rw [if_neg fun found => own (getPendingLocked_iff.mp found).1, if_neg own]

theorem Failed.iterated {call : Call} {exc : Exc} (calls : lookup.call eventId = some call)
    (failed : Failed (servers.forEvent eventId) start call exc w) : Iterated servers lookup start eventId w where
  ready := failed.ended.ready
  idle nothing := by cases calls.symm.trans nothing
  transacted other same := by
    obtain rfl := Option.some.inj (calls.symm.trans same)
    exact failed.ended.transacted
  rows := reconciled_kept failed.rows fun now bet own => reconciled_fails (own ▸ failed.raises.fails)

end

namespace Reconciler

variable {servers : EventServer} {lookup : EventLookup}

theorem getEvent_returns {eventId : UUID} {snapshot : Option EventSnapshot} (answer : lookup eventId = .ok snapshot)
    (r : Reconciler) : getEvent lookup eventId r = .ok snapshot { r with looked := r.looked ++ [eventId] } := by
  unfold getEvent
  rw [bind_of_ok (modify_eq _ r), answer]
  rfl

theorem getEvent_raises {eventId : UUID} {exc : Exn} (answer : lookup eventId = .error exc) (r : Reconciler) :
    getEvent lookup eventId r = .error exc { r with looked := r.looked ++ [eventId] } := by
  unfold getEvent
  rw [bind_of_ok (modify_eq _ r), answer]
  rfl

/-- An iteration, however it has ended. -/
def Iterates (servers : EventServer) (lookup : EventLookup) (start : Reconciler) (eventId : UUID) (r : Reconciler) :
    Prop :=
  Iterated servers lookup start.world eventId r.world ∧ r.looked = start.looked ++ [eventId]

theorem inUnitOfWork_spec {β : Type} {fn : Coroutine β} {call : Call} {status : BetStatus} (entry : LogEntry)
    {start : Reconciler} {eventId : UUID} (ready : Ready start.world) (decides : verdict (lookup eventId) = some status)
    (calls : lookup.call eventId = some call)
    (ends : ∀ start, ⦃fun w => ⌜w = start ∧ Ready w⌝⦄ fn
      ⦃post⟨fun _ w => ⌜Settled (servers.forEvent eventId) start call ⟨eventId, status, .reconciler⟩ w ∧
            Unfaulted (servers.forEvent eventId) start eventId [.select, .update, .commit]⌝,
        fun exc w => ⌜Failed (servers.forEvent eventId) start call exc w⌝⟩⦄) :
    ⦃fun r => ⌜r = { start with looked := start.looked ++ [eventId] }⌝⦄ inUnitOfWork fn entry
      ⦃post⟨fun _ r => ⌜Iterates servers lookup start eventId r⌝,
        fun _ r => ⌜Iterates servers lookup start eventId r⌝⟩⦄ := by
  -- the new unit of work leaves the database of `start` as it is
  have ended := triple_iff.mp (ends { start.world with uow := {} }) _ ⟨rfl, ready.renew _ _⟩
  rw [triple_iff]
  rintro r rfl
  unfold inUnitOfWork inWorld
  simp only [bind_of_ok (modify_eq _ start.world)]
  cases called : fn { start.world with uow := {} } with
  | ok result t =>
    rw [called] at ended
    obtain ⟨settled, unfaulted⟩ := ended
    have iterated : Iterated servers lookup _ eventId t := settled.iterated decides calls unfaulted
    rw [bind_of_ok called]
    exact ⟨⟨iterated.ready.renew _ _, iterated.idle, iterated.transacted, iterated.rows⟩, rfl⟩
  | error exc t =>
    rw [called] at ended
    have iterated : Iterated servers lookup _ eventId t := ended.iterated calls
    rw [bind_of_error called]
    exact ⟨⟨iterated.ready, iterated.idle, iterated.transacted, iterated.rows⟩, rfl⟩

theorem settleEvent_spec {start : Reconciler} {eventId : UUID} {terminalState : EventTerminalState}
    (ready : Ready start.world) (decides : verdict (lookup eventId) = some (terminalToStatus terminalState))
    (calls : lookup.call eventId = some (.settleBetsForEvent eventId terminalState .reconciler)) :
    ⦃fun r => ⌜r = { start with looked := start.looked ++ [eventId] }⌝⦄
      settleEvent (servers.forEvent eventId) eventId terminalState
      ⦃post⟨fun _ r => ⌜Iterates servers lookup start eventId r⌝,
        fun _ r => ⌜Iterates servers lookup start eventId r⌝⟩⦄ :=
  inUnitOfWork_spec _ ready decides calls fun start =>
    settleBetsForEvent_ends (servers.forEvent eventId) start eventId terminalState .reconciler

theorem reconcileEvent_spec (servers : EventServer) (lookup : EventLookup) {start : Reconciler}
    (ready : Ready start.world) (eventId : UUID) :
    ⦃fun r => ⌜r = start⌝⦄ reconcileEvent (servers.forEvent eventId) lookup eventId
      ⦃post⟨fun _ r => ⌜Iterates servers lookup start eventId r⌝,
        fun _ r => ⌜Iterates servers lookup start eventId r⌝⟩⦄ := by
  rw [triple_iff]
  rintro r rfl
  unfold reconcileEvent
  cases answer : lookup eventId with
  | error exc =>
    have calls : lookup.call eventId = none := by simp [EventLookup.call, answer, Except.toOption]
    rw [bind_of_error (getEvent_raises answer r)]
    exact ⟨iterated_skips ready rfl calls (by simp [verdict, answer]), rfl⟩
  | ok snapshot =>
    have calls : lookup.call eventId = BetMaker.reconcileEvent eventId snapshot := by
      simp [EventLookup.call, answer, Except.toOption]
    rw [bind_of_ok (getEvent_returns answer r)]
    cases snapshot with
    | none =>
      exact triple_iff.mp (inUnitOfWork_spec _ ready (by simp [verdict, answer]) calls fun start =>
        cancelBetsForEvent_ends (servers.forEvent eventId) start eventId) _ rfl
    | some snapshot =>
      cases state : snapshot.state with
      | new =>
        simp only [BetMaker.reconcileEvent, state] at calls
        simp only [state]
        exact ⟨iterated_skips (ready.renew _ _) rfl calls (by simp [verdict, answer, state]), rfl⟩
      | finishedWin =>
        simp only [BetMaker.reconcileEvent, state] at calls
        simp only [state]
        exact triple_iff.mp (settleEvent_spec ready (by simp [verdict, answer, state, terminalToStatus]) calls) _ rfl
      | finishedLose =>
        simp only [BetMaker.reconcileEvent, state] at calls
        simp only [state]
        exact triple_iff.mp (settleEvent_spec ready (by simp [verdict, answer, state, terminalToStatus]) calls) _ rfl

theorem reconcileEvent_ends (servers : EventServer) (lookup : EventLookup) {start : Reconciler}
    (ready : Ready start.world) (eventId : UUID) :
    ∃ r, (reconcileEvent (servers.forEvent eventId) lookup eventId start = .ok () r ∨
        ∃ exc, reconcileEvent (servers.forEvent eventId) lookup eventId start = .error exc r) ∧
      Iterates servers lookup start eventId r := by
  have ended := triple_iff.mp (reconcileEvent_spec servers lookup ready eventId) start rfl
  cases called : reconcileEvent (servers.forEvent eventId) lookup eventId start with
  | ok result r =>
    rw [called] at ended
    exact ⟨r, Or.inl rfl, ended⟩
  | error exc r =>
    rw [called] at ended
    exact ⟨r, Or.inr ⟨exc, rfl⟩, ended⟩

/-- The handler of `Exception` leaves the iteration as it has ended. -/
theorem iteration_ends (servers : EventServer) (lookup : EventLookup) {start : Reconciler} (ready : Ready start.world)
    (eventId : UUID) : ∃ r, tryCatch (reconcileEvent (servers.forEvent eventId) lookup eventId)
        (fun _ => inWorld (log (.eventFailed eventId))) start = .ok () r ∧ Iterates servers lookup start eventId r := by
  obtain ⟨r, called | ⟨exc, called⟩, iterated, looked⟩ := reconcileEvent_ends servers lookup ready eventId
  · exact ⟨r, tryCatch_of_ok called, iterated, looked⟩
  · refine ⟨_, (tryCatch_of_error called).trans rfl, ⟨?_, looked⟩⟩
    exact ⟨iterated.ready.renew _ _, iterated.idle, iterated.transacted, iterated.rows⟩

/-- Iterations over different events change different rows. -/
theorem iterations_end (servers : EventServer) (lookup : EventLookup) {todo : List UUID} (distinct : todo.Nodup)
    {start : Reconciler} (ready : Ready start.world) :
    ∃ after, (todo.forM fun eventId => tryCatch (reconcileEvent (servers.forEvent eventId) lookup eventId)
        fun _ => inWorld (log (.eventFailed eventId))) start = .ok () after ∧
      Ready after.world ∧ after.looked = start.looked ++ todo ∧
      ∃ now : UUID → Instant, ∀ id, after.world.db.table.rows.lookup id =
        (start.world.db.table.rows.lookup id).map fun bet =>
          if bet.eventId ∈ todo then reconciled servers lookup (now bet.eventId) bet else bet := by
  induction todo generalizing start with
  | nil => exact ⟨start, rfl, ready, by simp, fun _ => 0, fun id => by simp⟩
  | cons eventId rest ih =>
    obtain ⟨apart, distinct⟩ := List.nodup_cons.mp distinct
    obtain ⟨middle, iterates, iterated, looked⟩ := iteration_ends servers lookup ready eventId
    obtain ⟨after, ends, ready', looked', now, rows⟩ := ih distinct iterated.ready
    obtain ⟨moment, first⟩ := iterated.rows
    refine ⟨after, ?_, ready', by simp [looked', looked], Function.update now eventId moment, fun id => ?_⟩
    · exact (bind_of_ok iterates).trans ends
    · rw [rows, first]
      cases start.world.db.table.rows.lookup id with
      | none => rfl
      | some bet =>
        by_cases own : bet.eventId = eventId
        · subst own
          have same : (reconciled servers lookup moment bet).eventId = bet.eventId := reconciled_later.eventId
          simp [same, apart]
        · simp [own]

theorem runTick_reads (servers : EventServer) (lookup : EventLookup)
    {readPending : Database → Except Exn (List UUID)} {start : Reconciler} {eventIds : List UUID}
    (reads : readPending start.world.db = .ok eventIds) :
    runTick servers lookup readPending start = (if eventIds.isEmpty then inWorld (log .tickNoop) else
      eventIds.forM fun eventId => tryCatch (reconcileEvent (servers.forEvent eventId) lookup eventId)
        fun _ => inWorld (log (.eventFailed eventId))) start := by
  unfold runTick
  rw [bind_of_ok (get_eq start), reads]
  rfl

/-- A tick ends quietly, and is a map on the bets: neither the order of the work-list nor the end of another
event's iteration enters into it. Each event with a PENDING bet is looked up once, and no other. -/
theorem tick_reconciles (servers : EventServer) (lookup : EventLookup)
    (readPending : Database → Except Exn (List UUID)) {start : Reconciler} (ready : Ready start.world)
    {eventIds : List UUID} (reads : readPending start.world.db = .ok eventIds)
    (found : eventIds.Perm (getPendingEventIds start.world.db)) :
    ∃ after, runTick servers lookup readPending start = .ok () after ∧
      after.looked = start.looked ++ eventIds ∧ eventIds.Nodup ∧
      (∀ eventId, eventId ∈ eventIds ↔ ∃ id, start.world.Pending eventId id) ∧
      ∃ now : UUID → Instant, ∀ id, after.world.db.table.rows.lookup id =
          (start.world.db.table.rows.lookup id).map (fun bet => reconciled servers lookup (now bet.eventId) bet) ∧
        ∀ bet, start.world.db.table.rows.lookup id = some bet →
          bet.Later (reconciled servers lookup (now bet.eventId) bet) := by
  have distinct : eventIds.Nodup := found.nodup_iff.mpr (List.nodup_dedup _)
  have listed : ∀ eventId, eventId ∈ eventIds ↔ ∃ id, start.world.Pending eventId id := by
    intro eventId
    rw [found.mem_iff]
    constructor
    · intro member
      obtain ⟨id, bet, row, event, pending⟩ := of_mem_getPendingEventIds member
      exact ⟨id, bet, row, getPendingLocked_iff.mpr ⟨event, pending⟩⟩
    · rintro ⟨id, bet, row, accepted⟩
      obtain ⟨rfl, pending⟩ := getPendingLocked_iff.mp accepted
      exact mem_getPendingEventIds row pending
  obtain ⟨after, ends, -, looked, now, rows⟩ := iterations_end servers lookup distinct ready
  have untouched : ∀ id bet, start.world.db.table.rows.lookup id = some bet → bet.eventId ∉ eventIds →
      ∀ now, reconciled servers lookup now bet = bet := by
    intro id bet row unlisted moment
    refine reconciled_decided fun pending => unlisted ((listed _).mpr ⟨id, bet, row, ?_⟩)
    exact getPendingLocked_iff.mpr ⟨rfl, pending⟩
  have mapped : ∀ id, after.world.db.table.rows.lookup id =
        (start.world.db.table.rows.lookup id).map (fun bet => reconciled servers lookup (now bet.eventId) bet) ∧
      ∀ bet, start.world.db.table.rows.lookup id = some bet →
        bet.Later (reconciled servers lookup (now bet.eventId) bet) := by
    refine fun id => ⟨?_, fun bet _ => reconciled_later⟩
    rw [rows]
    cases row : start.world.db.table.rows.lookup id with
    | none => rfl
    | some bet =>
      by_cases member : bet.eventId ∈ eventIds
      · simp [member]
      · simp [member, untouched id bet row member]
  have reading := runTick_reads servers lookup reads
  rw [reading]
  by_cases empty : eventIds = []
  · subst empty
    obtain rfl : after = start := by
      injection ends with _ same
      exact same.symm
    exact ⟨_, rfl, looked, distinct, listed, now, mapped⟩
  · rw [if_neg (by simpa using empty)]
    exact ⟨after, ends, looked, distinct, listed, now, mapped⟩

/-- A bet on event 7, whose lookup raises, and one on event 8, which is won. -/
def twoEvents : AList fun _ : UUID => Bet :=
  [⟨100, ⟨100, 7, ⟨false, 1000, -2⟩, .pending, 1, 1, none, none⟩⟩,
   ⟨101, ⟨101, 8, ⟨false, 1000, -2⟩, .pending, 1, 1, none, none⟩⟩].toAList

def healthyEvents : EventServer := { fault := fun _ _ => none, now := fun t => 10 + t, clock := fun t => 10 + t }

def boom : EventLookup := fun eventId =>
  if eventId = 8 then .ok (some ⟨8, .aware 5, .finishedWin⟩) else .error (.transportError "boom")

theorem tick_reconciles_twoEvents :
    ∃ after, runTick healthyEvents boom (fun db => .ok (getPendingEventIds db))
        { world := { db := .start twoEvents } } = .ok () after ∧ after.looked = [7, 8] ∧
      (after.world.db.table.rows.lookup 100).map Bet.status = some .pending ∧
      (after.world.db.table.rows.lookup 101).map Bet.status = some .won := by
  have ready : Ready (Reconciler.mk { db := .start twoEvents } []).world := start_ready twoEvents
  obtain ⟨after, ends, looked, -, -, now, rows⟩ :=
    tick_reconciles healthyEvents boom (fun db => .ok (getPendingEventIds db)) ready rfl (.refl _)
  refine ⟨after, ends, looked.trans (by decide), ?_, ?_⟩
  · rw [(rows 100).1]
    rfl
  · rw [(rows 101).1]
    rfl

end Reconciler

end BetSettlement.BetMaker
