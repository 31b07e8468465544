import BetSettlement.BetMaker.Delivery
import BetSettlement.BetMaker.RunTick

/-!
# The tick among the other tasks

What `_run_tick` does alone, from the reading of its work-list to the end of its loop, is a run of the
reconciler that shares its database with bet-maker's other tasks.
-/

namespace BetSettlement.BetMaker
open Python Machine

variable [Pydantic]

/-- A run of the reconciler that ends where the coroutine has got to. -/
def Sweeps (s : Service) (tick : Tick) (w : World) : Prop :=
  ∃ events log, run serve s events = some { s with tick, log, db := w.db }

theorem Sweeps.event {s : Service} {tick tick' : Tick} {w w' : World} (sweeps : Sweeps s tick w)
    (served : ∀ log, ∃ event log', serve { s with tick, log, db := w.db } event =
      some { s with tick := tick', log := log', db := w'.db }) : Sweeps s tick' w' := by
  obtain ⟨events, log, reached⟩ := sweeps
  obtain ⟨event, log', next⟩ := served log
  exact ⟨events ++ [event], log', run_snoc.mpr ⟨_, reached, next⟩⟩

theorem Sweeps.transacts {s : Service} {eventId : UUID} {snapshot : Option EventSnapshot} {call : Call}
    {todo : List UUID} {w w' : World} {t : TxId} (sweeps : Sweeps s (.decided eventId snapshot call todo) w)
    (transacted : Transacted w.db t call w'.db) : Sweeps s (.running t todo) w' := by
  obtain ⟨events, log, reached⟩ := sweeps
  obtain ⟨clock, now, actions, moves, own⟩ := transacted
  obtain ⟨begun, begins, rest⟩ := run_cons.mp moves
  have opened : serve { s with tick := .decided eventId snapshot call todo, log, db := w.db }
      (.tick (.begin t clock now)) = some { s with
        tick := .running t todo, log := log ++ [⟨eventId, .answered snapshot, some t⟩], db := begun } := by
    simp [serve, tickStep, Service.begin, Service.record, begins]
  have used : begun.slots t ≠ .unused := by simp [(begin_slot begins).2]
  have served := serve_transactions (s := { s with
    tick := .running t todo, log := log ++ [⟨eventId, .answered snapshot, some t⟩], db := begun }) own used rest
  exact ⟨events ++ (.tick (.begin t clock now) :: actions.map .transaction), _,
    run_append.mpr ⟨_, reached, run_cons.mpr ⟨_, opened, served⟩⟩⟩

theorem Iterated.sweeps {servers : EventServer} {lookup : EventLookup} {s : Service} {start w : World} {eventId : UUID}
    {todo : List UUID} (iterated : Iterated servers lookup start eventId w) (ready : Ready start)
    (sweeps : Sweeps s (.ready (eventId :: todo)) start) : Sweeps s (.ready todo) w := by
  cases answer : lookup eventId with
  | error exc =>
    have same := iterated.idle (by simp [EventLookup.call, answer, Except.toOption])
    refine sweeps.event fun log => ⟨.tick (.lookup .unavailable), log ++ [⟨eventId, .unavailable, none⟩], ?_⟩
    simp only [serve, tickStep, Service.record, same]
  | ok snapshot =>
    have decides : lookup.call eventId = reconcileEvent eventId snapshot := by
      simp [EventLookup.call, answer, Except.toOption]
    cases calls : reconcileEvent eventId snapshot with
    | none =>
      have same := iterated.idle (decides.trans calls)
      refine sweeps.event fun log =>
        ⟨.tick (.lookup (.answered snapshot)), log ++ [⟨eventId, .answered snapshot, none⟩], ?_⟩
      simp only [serve, tickStep, calls, Service.record, same]
    | some call =>
      have transacted := iterated.transacted call (decides.trans calls)
      have decided : Sweeps s (.decided eventId snapshot call todo) start := by
        refine sweeps.event fun log => ⟨.tick (.lookup (.answered snapshot)), log, ?_⟩
        simp only [serve, tickStep, calls]
      have running := decided.transacts transacted
      refine running.event fun log => ⟨.tick .next, log, ?_⟩
      rcases transacted.ended ready iterated.ready with ⟨tx, committed⟩ | ⟨tx, aborted⟩
      · simp only [serve, tickStep, committed]
      · simp only [serve, tickStep, aborted]

theorem iterations_sweep (servers : EventServer) (lookup : EventLookup) {s : Service} {todo : List UUID}
    {start : Reconciler} (ready : Ready start.world) (sweeps : Sweeps s (.ready todo) start.world) :
    ∃ after, (todo.forM fun eventId => tryCatch (Reconciler.reconcileEvent (servers.forEvent eventId) lookup eventId)
        fun _ => Reconciler.inWorld (log (.eventFailed eventId))) start = .ok () after ∧
      Sweeps s (.ready []) after.world := by
  induction todo generalizing start with
  | nil => exact ⟨start, rfl, sweeps⟩
  | cons eventId rest ih =>
    obtain ⟨middle, iterates, iterated, -⟩ := Reconciler.iteration_ends servers lookup ready eventId
    obtain ⟨after, ends, swept⟩ := ih iterated.ready (iterated.sweeps ready sweeps)
    exact ⟨after, (bind_of_ok iterates).trans ends, swept⟩

/-- A tick whose work-list could be read is one as the other tasks see it: the run of the reconciler ends idle,
with the database that the coroutine leaves. -/
theorem tick_sweeps (servers : EventServer) (lookup : EventLookup) (readPending : Database → Except Exn (List UUID))
    {s : Service} {start : Reconciler} (ready : Ready start.world) (same : s.db = start.world.db)
    (idle : s.tick = .idle) {eventIds : List UUID} (reads : readPending start.world.db = .ok eventIds)
    (found : eventIds.Perm (getPendingEventIds start.world.db)) :
    ∃ after, Reconciler.runTick servers lookup readPending start = .ok () after ∧ Sweeps s .idle after.world := by
  have begun : Sweeps s (.ready eventIds) start.world := by
    refine ⟨[.tick (.read eventIds)], [], run_cons.mpr ⟨_, ?_, run_nil.mpr rfl⟩⟩
    simp only [serve, tickStep, idle, same, if_pos found]
  obtain ⟨after, ends, swept⟩ := iterations_sweep servers lookup ready begun
  have stopped : ∀ w : World, Sweeps s (.ready []) w → Sweeps s .idle w := fun w swept =>
    swept.event fun log => ⟨.tick .stop, log, by simp only [serve, tickStep]⟩
  have reading := Reconciler.runTick_reads servers lookup reads
  rw [reading]
  by_cases empty : eventIds = []
  · subst empty
    exact ⟨_, rfl, stopped start.world begun⟩
  · rw [if_neg (by simpa using empty)]
    exact ⟨after, ends, stopped after.world swept⟩

end BetSettlement.BetMaker
