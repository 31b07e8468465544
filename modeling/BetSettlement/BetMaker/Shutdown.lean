import BetSettlement.BetMaker.Interruption
import BetSettlement.BetMaker.Loop

/-!
# The reconciler at shutdown

The task of the reconciler is cancelled wherever it waits: in its sleep, in the SELECT of a work-list, in a lookup or
in a transaction. `_run_tick` goes on after an `Exception` alone.
-/

namespace BetSettlement.BetMaker
open Python Machine Std.Do

set_option mvcgen.warning false

structure EventConnection extends EventServer where
  reply : UUID → Option Exc
  rollback : UUID → Option Exc

def EventConnection.forEvent (conn : EventConnection) (eventId : UUID) : Connection :=
  { toServer := conn.toEventServer.forEvent eventId, reply := fun _ => conn.reply eventId,
    rollback := fun _ => conn.rollback eventId, asleep := fun _ => false }

def EventServer.uncut (servers : EventServer) : EventConnection :=
  { toEventServer := servers, reply := fun _ => none, rollback := fun _ => none }

/-- What one tick meets. `unreadable` is raised where the SELECT of the work-list fails, and a lookup is `none` where
it is cancelled. -/
structure Pass where
  servers : EventConnection
  lookup : UUID → Option (Except Exn (Option EventSnapshot))
  unreadable : Option BaseExn := none
  order : List UUID → List UUID
  perm : ∀ eventIds, (order eventIds).Perm eventIds

def Exc.base (exc : Exc) : BaseExn :=
  if exc = cancelledError then .cancelledError else .exception (.database exc)

namespace Pass

def worklist (pass : Pass) (db : Database) : List UUID :=
  pass.order (getPendingEventIds db)

def inWorld {α : Type} (fn : Coroutine α) : EStateM BaseExn Reconciler α := fun r =>
  match fn r.world with
  | .ok a w => .ok a { r with world := w }
  | .error exc w => .error exc.base { r with world := w }

def getEvent (pass : Pass) (eventId : UUID) : EStateM BaseExn Reconciler (Option EventSnapshot) := do
  modify fun r => { r with looked := r.looked ++ [eventId] }
  match pass.lookup eventId with
  | none => throw .cancelledError
  | some (.error exc) => throw (.exception exc)
  | some (.ok snapshot) => pure snapshot

def inUnitOfWork {α : Type} (fn : Coroutine α) (entry : LogEntry) : EStateM BaseExn Reconciler Unit :=
  inWorld do
    modify fun w => { w with uow := {} }
    let _ ← fn
    log entry

def settleEvent (conn : Connection) (eventId : UUID) (terminalState : EventTerminalState) :
    EStateM BaseExn Reconciler Unit :=
  inUnitOfWork (conn.settleBetsForEvent eventId terminalState .reconciler) (.eventSettled eventId terminalState)

def reconcileEvent (pass : Pass) (eventId : UUID) : EStateM BaseExn Reconciler Unit := do
  match ← pass.getEvent eventId with
  | none => inUnitOfWork ((pass.servers.forEvent eventId).cancelBetsForEvent eventId) (.eventCancelled eventId)
  | some snapshot =>
    match snapshot.state with
    | .finishedWin => settleEvent (pass.servers.forEvent eventId) eventId .finishedWin
    | .finishedLose => settleEvent (pass.servers.forEvent eventId) eventId .finishedLose
    | .new => inWorld (log (.eventStillNew eventId))

/-- The `try` statement in the loop of `_run_tick`. -/
def iteration (pass : Pass) (eventId : UUID) : EStateM BaseExn Reconciler Unit :=
  tryCatch (pass.reconcileEvent eventId) fun
    | .cancelledError => throw .cancelledError
    | .exception _ => inWorld (log (.eventFailed eventId))

def runTick (pass : Pass) : EStateM BaseExn Reconciler Unit := do
  awaits pass.unreadable
  let eventIds := pass.worklist (← get).world.db
  if eventIds.isEmpty then
    inWorld (log .tickNoop)
  else
    eventIds.forM pass.iteration

def tick (pass : Pass) : EStateM BaseExn ReconciliationTask Unit := fun task =>
  match pass.runTick task.reconciler with
  | .ok _ reconciler => .ok () { task with reconciler }
  | .error exc reconciler => .error exc { task with reconciler }

/-- The loop until it is cancelled, after these ticks at the latest. -/
def reconciliationLoop : List Pass → EStateM BaseExn ReconciliationTask Empty
  | [] => do
    modify fun task => { task with cancelled := true }
    throw .cancelledError
  | pass :: rest => do
    tryCatch pass.tick fun
      | .cancelledError => do
        modify fun task => { task with cancelled := true }
        throw .cancelledError
      | .exception exc => modify fun task => { task with failed := task.failed ++ [exc] }
    reconciliationLoop rest

/-- The status that the tick gives to the PENDING bets on an event, if it gets to it. -/
def decides (pass : Pass) (eventId : UUID) : Option BetStatus :=
  if pass.servers.succeeds eventId then (pass.lookup eventId).bind verdict else none

/-- The lookup of an event with PENDING bets raises, or the transaction does that its answer calls for. -/
def raises (pass : Pass) (eventId : UUID) : Bool :=
  match pass.lookup eventId with
  | none | some (.error _) => true
  | some answer =>
    (verdict answer).isSome && (!pass.servers.succeeds eventId || (pass.servers.reply eventId).isSome)

/-- The cancellation comes while the event is dealt with. -/
def Strikes (pass : Pass) (eventId : UUID) : Prop :=
  pass.lookup eventId = none ∨ ∃ t, (pass.servers.forEvent eventId).Surfaces t cancelledError

/-- The cancellation comes while an event with PENDING bets is dealt with, and nothing else is raised that could
take its place. -/
def Stops (pass : Pass) (eventId : UUID) : Prop :=
  pass.lookup eventId = none ∨
    ((pass.lookup eventId).bind verdict).isSome ∧
      (pass.servers.succeeds eventId = false ∨ pass.servers.reply eventId ≠ none) ∧
      ∀ t exc, (pass.servers.forEvent eventId).Surfaces t exc → exc = cancelledError

end Pass

/-! ### What is logged -/

def LogEntry.failed : LogEntry → Option UUID
  | .eventFailed eventId => some eventId
  | _ => none

/-- The events whose failures have been logged. -/
def World.failures (w : World) : List UUID := w.logged.filterMap LogEntry.failed

theorem failures_logs (w : World) (entry : LogEntry) :
    World.failures { w with logged := w.logged ++ [entry] } = w.failures ++ entry.failed.toList := by
  unfold World.failures
  rw [List.filterMap_append]
  cases entry <;> rfl

section
variable {pass : Pass} {start : Reconciler} {eventId : UUID}

/-- What an iteration of `_run_tick` has done, whether it raises or not. -/
structure Touched (pass : Pass) (start : Reconciler) (eventId : UUID) (failed : List UUID) (r : Reconciler) :
    Prop where
  ready : Ready r.world
  looked : r.looked = start.looked ++ [eventId]
  rows : ∃ now, ∀ id, r.world.db.table.rows.lookup id = (start.world.db.table.rows.lookup id).map fun bet =>
    if bet.eventId = eventId then bet.sweptTo (pass.decides eventId) now else bet
  failures : r.world.failures = start.world.failures ++ failed

/-- How an iteration has ended, before its `except` clause. -/
structure Dealt (pass : Pass) (start : Reconciler) (eventId : UUID) (raised : Option BaseExn)
    (r : Reconciler) : Prop extends Touched pass start eventId [] r where
  struck : raised = some .cancelledError → pass.Strikes eventId
  passed : raised ≠ some .cancelledError → start.world.db.HasPending eventId → ¬ pass.Stops eventId
  raises : start.world.db.HasPending eventId → pass.raises eventId = raised.isSome

/-- One line more in the log. -/
theorem Touched.logs {r : Reconciler} (touched : Touched pass start eventId [] r) (entry : LogEntry) :
    Touched pass start eventId entry.failed.toList
      { r with world := { r.world with logged := r.world.logged ++ [entry] } } where
  ready := touched.ready.renew _ _
  looked := touched.looked
  rows := touched.rows
  failures := by rw [failures_logs, touched.failures, List.append_nil]

theorem Touched.pending {failed : List UUID} {r : Reconciler} {other : UUID}
    (touched : Touched pass start eventId failed r) (apart : other ≠ eventId) (has : start.world.db.HasPending other) :
    r.world.db.HasPending other := by
  obtain ⟨now, rows⟩ := touched.rows
  obtain ⟨id, bet, row, rfl, pending⟩ := has
  exact ⟨id, bet, by rw [rows, row, Option.map_some, if_neg apart], rfl, pending⟩

theorem Dealt.skips {raised : Option BaseExn} {r : Reconciler} (ready : Ready start.world)
    (undecided : pass.decides eventId = none) (same : r.world = start.world)
    (looked : r.looked = start.looked ++ [eventId]) (struck : raised = some .cancelledError → pass.Strikes eventId)
    (passed : raised ≠ some .cancelledError → ¬ pass.Stops eventId) (raises : pass.raises eventId = raised.isSome) :
    Dealt pass start eventId raised r where
  ready := same ▸ ready
  looked := looked
  rows := by
    refine ⟨0, ?_⟩
    intro id
    rw [same, undecided]
    refine (Option.map_id'.symm).trans (congrArg (fun f => Option.map f _) (funext fun bet => ?_))
    split <;> rfl
  failures := by rw [same, List.append_nil]
  struck := struck
  passed caught _ := passed caught
  raises _ := raises

/-- What is known of an iteration that has a final answer. -/
theorem Iterated.dealt {answer : Except Exn (Option EventSnapshot)} {raised : Option BaseExn} {r : Reconciler}
    (answered : pass.lookup eventId = some answer)
    (iterated : Iterated pass.servers.toEventServer (fun _ => answer) start.world eventId r.world)
    (looked : r.looked = start.looked ++ [eventId]) (failures : r.world.failures = start.world.failures)
    (struck : raised = some .cancelledError → pass.Strikes eventId)
    (passed : raised ≠ some .cancelledError → start.world.db.HasPending eventId → ¬ pass.Stops eventId)
    (raises : start.world.db.HasPending eventId → pass.raises eventId = raised.isSome) :
    Dealt pass start eventId raised r where
  ready := iterated.ready
  looked := looked
  rows := by
    obtain ⟨now, rows⟩ := iterated.rows
    refine ⟨now, fun id => (rows id).trans (congrArg (fun f => Option.map f _) (funext fun bet => ?_))⟩
    by_cases own : bet.eventId = eventId
    · let round : Round := { servers := pass.servers.toEventServer, lookup := fun _ => answer,
                             order := fun eventIds => eventIds, perm := fun _ => .refl _ }
      have same : pass.decides eventId = round.decides bet.eventId := by
        simp [Pass.decides, Round.decides, answered, own, round]
      rw [if_pos own, if_pos own, same]
      exact @reconciled_sweptTo round bet now rfl
    · rw [if_neg own, if_neg own]
  failures := failures.trans (List.append_nil _).symm
  struck := struck
  passed := passed
  raises := raises

theorem getEvent_eq (pass : Pass) (eventId : UUID) (start : Reconciler) : pass.getEvent eventId start =
    match pass.lookup eventId with
    | none => .error .cancelledError { start with looked := start.looked ++ [eventId] }
    | some (.error exc) => .error (.exception exc) { start with looked := start.looked ++ [eventId] }
    | some (.ok snapshot) => .ok snapshot { start with looked := start.looked ++ [eventId] } := by
  unfold Pass.getEvent
  rw [bind_of_ok (modify_eq _ start)]
  rcases pass.lookup eventId with _ | _ | _ <;> rfl

end

/-! ### One tick -/

/-- The events that a tick has got to have been dealt with, and no others. The failures are logged. -/
structure Reached (pass : Pass) (start : Reconciler) (reached failed : List UUID) (r : Reconciler) : Prop where
  ready : Ready r.world
  looked : r.looked = start.looked ++ reached
  rows : ∃ now : UUID → Instant, ∀ id, r.world.db.table.rows.lookup id =
    (start.world.db.table.rows.lookup id).map fun bet =>
      if bet.eventId ∈ reached then bet.sweptTo (pass.decides bet.eventId) (now bet.eventId) else bet
  failures : r.world.failures = start.world.failures ++ failed

section
variable {pass : Pass} {start r : Reconciler} {eventId : UUID} {reached failed failed' : List UUID}

theorem Reached.nil (ready : Ready start.world) : Reached pass start [] [] start := by
  refine ⟨ready, (List.append_nil _).symm, ⟨fun _ => 0, fun id => ?_⟩, (List.append_nil _).symm⟩
  simp

theorem Touched.cons {middle : Reconciler} (touched : Touched pass start eventId failed middle)
    (rest : Reached pass middle reached failed' r) (apart : eventId ∉ reached) :
    Reached pass start (eventId :: reached) (failed ++ failed') r := by
  obtain ⟨moment, first⟩ := touched.rows
  obtain ⟨now, rows⟩ := rest.rows
  refine ⟨rest.ready, by simp [rest.looked, touched.looked], ⟨Function.update now eventId moment, fun id => ?_⟩,
    by simp [rest.failures, touched.failures]⟩
  rw [rows, first, Option.map_map]
  refine congrArg (fun f => Option.map f _) (funext fun bet => ?_)
  by_cases own : bet.eventId = eventId
  · subst own
    simp [sweptTo_eventId, apart]
  · simp [own]

end

/-- What the tick makes of an event that it does not fail to get to. -/
def Pass.settles (pass : Pass) (eventId : UUID) : Option BetStatus :=
  if pass.unreadable.isNone then pass.decides eventId else none

section
variable {pass : Pass} {start : ReconciliationTask}

theorem Pass.settles_decides {eventId : UUID} {status : BetStatus} (settles : pass.settles eventId = some status) :
    status ≠ .pending := by
  unfold Pass.settles Pass.decides at settles
  split at settles
  · split at settles
    · obtain ⟨answer, -, decides⟩ := Option.bind_eq_some_iff.mp settles
      exact verdict_settles decides
    · cases settles
  · cases settles

theorem tick_raises {exc : BaseExn} (unreadable : pass.unreadable = some exc) : pass.tick start = .error exc start := by
  have raises : pass.runTick start.reconciler = .error exc start.reconciler := by
    unfold Pass.runTick
    rw [unreadable]
    exact bind_of_error (awaits_some exc _)
  simp only [Pass.tick, raises]

theorem runTick_pass (readable : pass.unreadable = none) (r : Reconciler) :
    pass.runTick r = (if (pass.worklist r.world.db).isEmpty then Pass.inWorld (log .tickNoop)
      else (pass.worklist r.world.db).forM pass.iteration) r := by
  unfold Pass.runTick
  rw [readable, bind_of_ok (awaits_none _), bind_of_ok (get_eq _)]

theorem mem_worklist {db : Database} {eventId : UUID} : eventId ∈ pass.worklist db ↔ db.HasPending eventId :=
  (pass.perm _).mem_iff.trans mem_getPendingEventIds_iff

theorem loop_fails {exc : Exn} (rest : List Pass) (unreadable : pass.unreadable = some (.exception exc)) :
    Pass.reconciliationLoop (pass :: rest) start =
      Pass.reconciliationLoop rest { start with failed := start.failed ++ [exc] } := by
  rw [Pass.reconciliationLoop]
  exact bind_of_ok (tryCatch_of_error (tick_raises unreadable))

theorem loop_goes {task : ReconciliationTask} (rest : List Pass) (goes : pass.tick start = .ok () task) :
    Pass.reconciliationLoop (pass :: rest) start = Pass.reconciliationLoop rest task := by
  rw [Pass.reconciliationLoop]
  exact bind_of_ok (tryCatch_of_ok goes)

end

/-! ### The whole task -/

/-- Where the cancellation has come: after which ticks, in which one, and after which of its events. -/
inductive Cut : List Pass → List Pass → Option Pass → List UUID → Prop where
  | asleep (front) : Cut front front none []
  | reading (front last rest) (struck : last.unreadable = some .cancelledError) :
      Cut (front ++ last :: rest) front (some last) []
  | dealing (front last rest dealt eventId) (readable : last.unreadable = none)
      (passed : ∀ other ∈ dealt, ¬ last.Stops other) (strikes : last.Strikes eventId) :
      Cut (front ++ last :: rest) front (some last) (dealt ++ [eventId])

def Pass.failure (pass : Pass) : Option Exn :=
  match pass.unreadable with
  | some (.exception exc) => some exc
  | _ => none

/-- The status that PENDING bets on an event get, in the ticks before the cancellation or in the one that it cuts. -/
def settledBy (front : List Pass) (last : Option Pass) (reached : List UUID) (eventId : UUID) : Option BetStatus :=
  (front.findSome? (Pass.settles · eventId)).or
    (if eventId ∈ reached then last.bind (Pass.settles · eventId) else none)

section
variable {passes front : List Pass} {last : Option Pass} {reached : List UUID} {start : ReconciliationTask}

theorem Cut.cons (pass : Pass) (cut : Cut passes front last reached) :
    Cut (pass :: passes) (pass :: front) last reached := by
  cases cut with
  | asleep => exact .asleep _
  | reading _ last rest struck => exact .reading (pass :: front) last rest struck
  | dealing _ last rest dealt eventId readable passed strikes =>
    exact .dealing (pass :: front) last rest dealt eventId readable passed strikes

theorem settledBy_cons (pass : Pass) (front : List Pass) (last : Option Pass) (reached : List UUID) (eventId : UUID) :
    settledBy (pass :: front) last reached eventId =
      (pass.settles eventId).or (settledBy front last reached eventId) := by
  unfold settledBy
  rw [List.findSome?_cons]
  cases pass.settles eventId <;> simp

theorem sweptTo_pending {status : Option BetStatus} {now : Instant} {bet : Bet}
    (pending : (bet.sweptTo status now).status = .pending) : bet.status = .pending := by
  by_contra decided
  rw [sweptTo_decided status decided] at pending
  exact decided pending

theorem swept_hasPending {db db' : Database} {f : Bet → Option BetStatus} {now : Bet → Instant} {eventId : UUID}
    (rows : ∀ id, db'.table.rows.lookup id = (db.table.rows.lookup id).map fun bet => bet.sweptTo (f bet) (now bet))
    (has : db'.HasPending eventId) : db.HasPending eventId := by
  obtain ⟨id, bet', row', event, pending⟩ := has
  rw [rows] at row'
  obtain ⟨bet, row, rfl⟩ := Option.map_eq_some_iff.mp row'
  exact ⟨id, bet, row, (sweptTo_eventId _).symm.trans event, sweptTo_pending pending⟩

/-- What a tick has done, as a sweep of every bet. -/
theorem Reached.swept {pass : Pass} {r : Reconciler} {failed : List UUID} (readable : pass.unreadable = none)
    (swept : Reached pass start.reconciler reached failed r) : ∃ now : UUID → Instant, ∀ id,
      r.world.db.table.rows.lookup id = (start.reconciler.world.db.table.rows.lookup id).map fun bet =>
        bet.sweptTo (if bet.eventId ∈ reached then pass.settles bet.eventId else none) (now bet.eventId) := by
  obtain ⟨now, rows⟩ := swept.rows
  refine ⟨now, fun id => (rows id).trans (congrArg (fun f => Option.map f _) (funext fun bet => ?_))⟩
  unfold Pass.settles
  rw [readable]
  split <;> rfl

/-- The events whose failures the task has logged: those of the ticks before the one that is cut, and those that this
one has got to before it was struck. -/
def failuresOf (earlier : List (Pass × UUID)) (last : Option Pass) (reached : List UUID) : List UUID :=
  (earlier.filter fun entry => entry.1.raises entry.2).map Prod.snd ++
    last.elim [] fun pass => reached.dropLast.filter pass.raises

/-- What the task leaves where the cancellation has come after the ticks in `front` and, in `last`, after the events
in `reached`. The ticks in `front` have made the lookups in `earlier`, and no cancellation has been passed over. -/
structure Shut (start : ReconciliationTask) (front : List Pass) (last : Option Pass) (reached : List UUID)
    (earlier : List (Pass × UUID)) (after : ReconciliationTask) : Prop where
  ready : Ready after.reconciler.world
  cancelled : after.cancelled = true
  failed : after.failed = start.failed ++ front.filterMap Pass.failure
  uncut : ∀ pass ∈ front, pass.unreadable ≠ some .cancelledError
  passed : ∀ entry ∈ earlier, entry.1 ∈ front ∧ ¬ entry.1.Stops entry.2
  looked : after.reconciler.looked = start.reconciler.looked ++ earlier.map Prod.snd ++ reached
  listed : ∀ eventId ∈ earlier.map Prod.snd ++ reached, start.reconciler.world.db.HasPending eventId
  rows : ∃ now : UUID → Instant, ∀ id, after.reconciler.world.db.table.rows.lookup id =
    (start.reconciler.world.db.table.rows.lookup id).map fun bet =>
      bet.sweptTo (settledBy front last reached bet.eventId) (now bet.eventId)
  logged : after.reconciler.world.failures = start.reconciler.world.failures ++ failuresOf earlier last reached

theorem Shut.waiting (last : Option Pass) (ready : Ready start.reconciler.world) :
    Shut start [] last [] [] { start with cancelled := true } := by
  refine ⟨ready, rfl, by simp, by simp, by simp, by simp, by simp, ⟨fun _ => 0, ?_⟩, ?_⟩
  · intro id
    exact Option.map_id'.symm
  · cases last <;> simp [failuresOf]

theorem Shut.dealing {pass : Pass} {r : Reconciler} {left : List UUID} (readable : pass.unreadable = none)
    (split : pass.worklist start.reconciler.world.db = reached ++ left)
    (swept : Reached pass start.reconciler reached (reached.dropLast.filter pass.raises) r) :
    Shut start [] (some pass) reached [] { start with reconciler := r, cancelled := true } where
  ready := swept.ready
  cancelled := rfl
  failed := by simp
  uncut := by simp
  passed := by simp
  looked := by simp [swept.looked]
  listed eventId member := by
    have listed : eventId ∈ pass.worklist start.reconciler.world.db := by
      rw [split]
      exact List.mem_append_left _ member
    exact mem_worklist.mp listed
  rows := by
    obtain ⟨now, rows⟩ := swept.swept readable
    exact ⟨now, rows⟩
  logged := swept.failures

theorem Shut.ticking {pass : Pass} {r : Reconciler} {earlier : List (Pass × UUID)} {after : ReconciliationTask}
    (readable : pass.unreadable = none)
    (swept : Reached pass start.reconciler (pass.worklist start.reconciler.world.db)
      ((pass.worklist start.reconciler.world.db).filter pass.raises) r)
    (passed : ∀ eventId ∈ pass.worklist start.reconciler.world.db, ¬ pass.Stops eventId)
    (shut : Shut { start with reconciler := r } front last reached earlier after) :
    Shut start (pass :: front) last reached
      ((pass.worklist start.reconciler.world.db).map (pass, ·) ++ earlier) after := by
  obtain ⟨now, rows⟩ := swept.swept readable
  obtain ⟨now', rows'⟩ := shut.rows
  refine ⟨shut.ready, shut.cancelled, ?_, List.forall_mem_cons.mpr ⟨by simp [readable], shut.uncut⟩, ?_, ?_, ?_,
    ⟨fun eventId => if (pass.settles eventId).isSome then now eventId else now' eventId, fun id => ?_⟩, ?_⟩
  · simp [shut.failed, Pass.failure, readable]
  · intro entry member
    rcases List.mem_append.mp member with first | later
    · obtain ⟨eventId, listed, rfl⟩ := List.mem_map.mp first
      exact ⟨List.mem_cons_self, passed eventId listed⟩
    · exact ⟨List.mem_cons_of_mem _ (shut.passed entry later).1, (shut.passed entry later).2⟩
  · simp [shut.looked, swept.looked, Function.comp_def]
  · intro eventId member
    rw [List.map_append, List.append_assoc] at member
    rcases List.mem_append.mp member with first | later
    · have listed : eventId ∈ pass.worklist start.reconciler.world.db := by
        simpa [Function.comp_def] using first
      exact mem_worklist.mp listed
    · exact swept_hasPending rows (shut.listed eventId later)
  · -- a bet on an event that is not in the work-list is not PENDING
    have all : ∀ bet, start.reconciler.world.db.table.rows.lookup id = some bet →
        bet.sweptTo (if bet.eventId ∈ pass.worklist start.reconciler.world.db then
          pass.settles bet.eventId else none) (now bet.eventId) =
          bet.sweptTo (pass.settles bet.eventId) (now bet.eventId) := by
      intro bet row
      by_cases listed : bet.eventId ∈ pass.worklist start.reconciler.world.db
      · rw [if_pos listed]
      · have decided : bet.status ≠ .pending := fun pending =>
          listed (mem_worklist.mpr ⟨id, bet, row, rfl, pending⟩)
        rw [sweptTo_decided _ decided, sweptTo_decided _ decided]
    rw [rows', rows]
    cases row : start.reconciler.world.db.table.rows.lookup id with
    | none => rfl
    | some bet =>
      simp only [Option.map_some, Option.some.injEq]
      rw [all bet row, sweptTo_eventId, settledBy_cons, sweptTo_sweptTo fun decided same => Pass.settles_decides same]
  · rw [shut.logged, swept.failures, List.append_assoc]
    simp [failuresOf, List.filter_map, Function.comp_def]

end

/-- A round of the loop that is cancelled in its sleep alone. -/
def Round.pass (round : Round) : Pass where
  servers := round.servers.uncut
  lookup eventId := some (round.lookup eventId)
  unreadable := round.unreadable.map .exception
  order := round.order
  perm := round.perm

/-- No statement of the round is cancelled. -/
def Round.Uncut (round : Round) : Prop :=
  ∀ eventId statement, round.servers.fault eventId statement ≠ some cancelledError

def asException {α σ : Type} : EStateM.Result Exn σ α → EStateM.Result BaseExn σ α
  | .ok a s => .ok a s
  | .error exc s => .error (.exception exc) s

section
variable {round : Round} {start : Reconciler}

theorem Round.Uncut.reliable (uncut : round.Uncut) (eventId : UUID) : (round.pass.servers.forEvent eventId).Reliable :=
  ⟨fun _ => rfl, fun _ => rfl, fun _ => rfl, fun _ => uncut eventId⟩

theorem Exc.base_exception {exc : Exc} (other : exc ≠ cancelledError) : exc.base = .exception (.database exc) :=
  if_neg other

theorem inUnitOfWork_uncut {β : Type} {fn fn' : Coroutine β} (entry : LogEntry) (eventId : UUID) (same : fn = fn')
    {call : Call} {settlement : Settlement} (uncut : round.Uncut) (ready : Ready start.world)
    (breaks : ∀ start, ⦃fun w => ⌜w = start ∧ Ready w⌝⦄ fn
      ⦃post⟨fun _ w => ⌜Unbroken (round.pass.servers.forEvent eventId) start call settlement w⌝,
        fun exc w => ⌜Broken (round.pass.servers.forEvent eventId) start call settlement exc w⌝⟩⦄) :
    Pass.inUnitOfWork fn entry start = asException (Reconciler.inUnitOfWork fn' entry start) := by
  subst same
  have ended := triple_iff.mp (breaks { start.world with uow := {} }) _ ⟨rfl, ready.renew _ _⟩
  unfold Pass.inUnitOfWork Pass.inWorld Reconciler.inUnitOfWork Reconciler.inWorld
  simp only [bind_of_ok (modify_eq _ start.world)]
  cases called : fn { start.world with uow := {} } with
  | ok result w =>
    rw [bind_of_ok called]
    rfl
  | error exc w =>
    rw [called] at ended
    have other : exc ≠ cancelledError := by
      rintro rfl
      exact (uncut.reliable eventId).surfaces _ ended.surfaces
    rw [bind_of_error called]
    simp only [Exc.base_exception other, asException]

theorem settleEvent_uncut (uncut : round.Uncut) (ready : Ready start.world) (eventId : UUID)
    (terminalState : EventTerminalState) :
    Pass.settleEvent (round.pass.servers.forEvent eventId) eventId terminalState start =
      asException (Reconciler.settleEvent (round.servers.forEvent eventId) eventId terminalState start) :=
  inUnitOfWork_uncut _ eventId ((uncut.reliable eventId).settleBetsForEvent eventId terminalState .reconciler) uncut
    ready fun start =>
      (round.pass.servers.forEvent eventId).settleBetsForEvent_breaks start eventId terminalState .reconciler

theorem reconcileEvent_uncut (uncut : round.Uncut) (ready : Ready start.world) (eventId : UUID) :
    round.pass.reconcileEvent eventId start =
      asException (Reconciler.reconcileEvent (round.servers.forEvent eventId) round.lookup eventId start) := by
  have reads := getEvent_eq round.pass eventId start
  cases answer : round.lookup eventId with
  | error exc =>
    simp only [Round.pass, answer] at reads
    rw [Reconciler.reconcileEvent, bind_of_error (Reconciler.getEvent_raises answer start)]
    exact bind_of_error reads
  | ok snapshot =>
    simp only [Round.pass, answer] at reads
    rw [Pass.reconcileEvent, Reconciler.reconcileEvent, bind_of_ok (Reconciler.getEvent_returns answer start)]
    refine (bind_of_ok reads).trans ?_
    cases snapshot with
    | none =>
      refine inUnitOfWork_uncut _ eventId ?_ uncut ready fun start =>
        (round.pass.servers.forEvent eventId).cancelBetsForEvent_breaks start eventId
      exact (uncut.reliable eventId).cancelBetsForEvent eventId
    | some snapshot =>
      cases state : snapshot.state with
      | new =>
        simp only [state]
        rfl
      | finishedWin =>
        simp only [state]
        refine settleEvent_uncut uncut ?_ eventId .finishedWin
        exact ready
      | finishedLose =>
        simp only [state]
        refine settleEvent_uncut uncut ?_ eventId .finishedLose
        exact ready

theorem iteration_uncut (uncut : round.Uncut) (ready : Ready start.world) (eventId : UUID) :
    ∃ r, round.pass.iteration eventId start = .ok () r ∧ Ready r.world ∧
      tryCatch (Reconciler.reconcileEvent (round.servers.forEvent eventId) round.lookup eventId)
        (fun _ => Reconciler.inWorld (log (.eventFailed eventId))) start = .ok () r := by
  have same := reconcileEvent_uncut uncut ready eventId
  obtain ⟨r, ends | ⟨exc, raises⟩, iterated, -⟩ :=
    Reconciler.reconcileEvent_ends round.servers round.lookup ready eventId
  · rw [ends] at same
    exact ⟨r, tryCatch_of_ok same, iterated.ready, tryCatch_of_ok ends⟩
  · rw [raises] at same
    exact ⟨_, (tryCatch_of_error same).trans rfl, iterated.ready.renew _ _, (tryCatch_of_error raises).trans rfl⟩

theorem iterations_uncut (uncut : round.Uncut) (ready : Ready start.world) (todo : List UUID) :
    ∃ r, todo.forM round.pass.iteration start = .ok () r ∧
      (todo.forM fun eventId => tryCatch
        (Reconciler.reconcileEvent (round.servers.forEvent eventId) round.lookup eventId)
        fun _ => Reconciler.inWorld (log (.eventFailed eventId))) start = .ok () r := by
  induction todo generalizing start with
  | nil => exact ⟨start, rfl, rfl⟩
  | cons eventId rest ih =>
    obtain ⟨middle, goes, ready', goes'⟩ := iteration_uncut uncut ready eventId
    obtain ⟨r, ends, ends'⟩ := ih ready'
    exact ⟨r, (bind_of_ok goes).trans ends, (bind_of_ok goes').trans ends'⟩

theorem tick_uncut (uncut : round.Uncut) (readable : round.unreadable = none) {task : ReconciliationTask}
    (ready : Ready task.reconciler.world) : round.pass.tick task = round.tick task := by
  obtain ⟨r, ends, ends'⟩ := iterations_uncut uncut ready (round.order (getPendingEventIds task.reconciler.world.db))
  have unread : round.pass.unreadable = none := by simp [Round.pass, readable]
  have reading := Reconciler.runTick_reads round.servers round.lookup (round_reads readable task.reconciler.world.db)
  have reading' : round.pass.runTick task.reconciler =
      (if (round.order (getPendingEventIds task.reconciler.world.db)).isEmpty then Pass.inWorld (log .tickNoop)
        else (round.order (getPendingEventIds task.reconciler.world.db)).forM round.pass.iteration) task.reconciler :=
    runTick_pass unread task.reconciler
  unfold Pass.tick Round.tick
  by_cases empty : (round.order (getPendingEventIds task.reconciler.world.db)).isEmpty
  · rw [if_pos empty] at reading reading'
    rw [reading, reading']
    rfl
  · rw [if_neg empty] at reading reading'
    rw [reading, reading', ends, ends']

end

/-- Then the loop is the one that is cancelled in its sleep. -/
theorem reconciliationLoop_uncut (rounds : List Round) (uncut : ∀ round ∈ rounds, round.Uncut)
    {start : ReconciliationTask} (ready : Ready start.reconciler.world) :
    Pass.reconciliationLoop (rounds.map Round.pass) start = reconciliationLoop rounds start := by
  induction rounds generalizing start with
  | nil => rfl
  | cons round rest ih =>
    obtain ⟨here, later⟩ := List.forall_mem_cons.mp uncut
    cases readable : round.unreadable with
    | some exc =>
      have unread : round.pass.unreadable = some (.exception exc) := by simp [Round.pass, readable]
      rw [loop_unreadable rest readable]
      exact (loop_fails _ unread).trans (ih later ready)
    | none =>
      obtain ⟨middle, ticks, ready', -⟩ := tick_readable readable ready
      rw [loop_ticks rest ticks]
      exact (loop_goes _ ((tick_uncut here readable ready).trans ticks)).trans (ih later ready')

end BetSettlement.BetMaker
