import BetSettlement.BetMaker.Sweep

/-!
# The loop of the reconciler

`reconciliation_loop` sleeps, ticks, logs what the tick raises and goes on, until it is cancelled in its sleep.
Nothing else runs beside it here.
-/

namespace BetSettlement.BetMaker
open Python Machine

inductive BaseExn where
  | cancelledError
  | exception (exc : Exn)
  deriving DecidableEq

/-- What one tick meets. `unreadable` is raised where the SELECT of the work-list fails, and `order` is the order
in which the server lists the events otherwise. -/
structure Round where
  servers : EventServer
  lookup : EventLookup
  unreadable : Option Exn := none
  order : List UUID → List UUID
  perm : ∀ eventIds, (order eventIds).Perm eventIds

def Round.readPending (round : Round) (db : Database) : Except Exn (List UUID) :=
  match round.unreadable with
  | some exc => .error exc
  | none => .ok (round.order (getPendingEventIds db))

/-- The task `reconciliation`. `failed` lists what `reconciler.tick.failed` was logged with. -/
structure ReconciliationTask where
  reconciler : Reconciler
  failed : List Exn := []
  cancelled : Bool := false

def Round.tick (round : Round) : EStateM BaseExn ReconciliationTask Unit := fun task =>
  match Reconciler.runTick round.servers round.lookup round.readPending task.reconciler with
  | .ok _ reconciler => .ok () { task with reconciler }
  | .error exc reconciler => .error (.exception exc) { task with reconciler }

/-- A loop that never returns. Its sleep is cancelled after these rounds. -/
def reconciliationLoop : List Round → EStateM BaseExn ReconciliationTask Empty
  | [] => do
    modify fun task => { task with cancelled := true }
    throw .cancelledError
  | round :: rest => do
    tryCatch round.tick fun
      | .cancelledError => do
        modify fun task => { task with cancelled := true }
        throw .cancelledError
      | .exception exc => modify fun task => { task with failed := task.failed ++ [exc] }
    reconciliationLoop rest

/-! ### What the loop comes to -/

/-- The status that a tick gives to the PENDING bets on an event. -/
def Round.decides (round : Round) (eventId : UUID) : Option BetStatus :=
  if round.unreadable.isNone ∧ round.servers.succeeds eventId = true then verdict (round.lookup eventId) else none

def Bet.sweptTo (status : Option BetStatus) (now : Instant) (bet : Bet) : Bet :=
  match status with
  | some status =>
    if bet.status = .pending then
      { bet with status, settledAt := some now, settledVia := some .reconciler, updatedAt := now }
    else bet
  | none => bet

section
variable {round : Round} {rest : List Round} {bet : Bet} {now : Instant} {eventId : UUID}

theorem verdict_settles {answer : Except Exn (Option EventSnapshot)} {status : BetStatus}
    (decides : verdict answer = some status) : status ≠ .pending := by
  unfold verdict at decides
  split at decides
  · obtain rfl := Option.some.inj decides
    simp
  · split at decides
    · obtain rfl := Option.some.inj decides
      simp
    · obtain rfl := Option.some.inj decides
      simp
    · cases decides
  · cases decides

theorem sweptTo_decided (status : Option BetStatus) (decided : bet.status ≠ .pending) :
    bet.sweptTo status now = bet := by
  cases status <;> simp [Bet.sweptTo, decided]

theorem sweptTo_eventId (status : Option BetStatus) : (bet.sweptTo status now).eventId = bet.eventId := by
  cases status with
  | none => rfl
  | some status => by_cases pending : bet.status = .pending <;> simp [Bet.sweptTo, pending]

theorem reconciled_sweptTo (readable : round.unreadable = none) :
    reconciled round.servers round.lookup now bet = bet.sweptTo (round.decides bet.eventId) now := by
  unfold reconciled Round.decides Bet.sweptTo
  by_cases succeeds : round.servers.succeeds bet.eventId = true
  · simp only [readable, succeeds, Option.isNone_none, and_true, if_true]
    cases verdict (round.lookup bet.eventId) <;> simp
  · simp [succeeds]

/-- Of two sweeps the first that decides has the say. -/
theorem sweptTo_sweptTo {later : Option BetStatus} {now' : Instant} {status : Option BetStatus}
    (decides : ∀ decided, status = some decided → decided ≠ .pending) :
    (bet.sweptTo status now).sweptTo later now' =
      bet.sweptTo (status.or later) (if status.isSome then now else now') := by
  cases status with
  | none => rfl
  | some decided =>
    by_cases pending : bet.status = .pending
    · have settled : (bet.sweptTo (some decided) now).status ≠ .pending := by
        simpa [Bet.sweptTo, pending] using decides decided rfl
      rw [sweptTo_decided later settled]
      rfl
    · rw [sweptTo_decided _ pending, sweptTo_decided later pending, sweptTo_decided _ pending]

end

/-! ### One tick after another -/

section
variable {round : Round} {start : ReconciliationTask}

theorem tick_unreadable {exc : Exn} (unreadable : round.unreadable = some exc) :
    round.tick start = .error (.exception exc) start := by
  have reads : round.readPending start.reconciler.world.db = .error exc := by simp [Round.readPending, unreadable]
  have raises : Reconciler.runTick round.servers round.lookup round.readPending start.reconciler =
      .error exc start.reconciler := by
    unfold Reconciler.runTick
    rw [bind_of_ok (get_eq start.reconciler), reads]
    rfl
  simp only [Round.tick, raises]

theorem round_reads (readable : round.unreadable = none) (db : Database) :
    round.readPending db = .ok (round.order (getPendingEventIds db)) := by
  simp only [Round.readPending, readable]

theorem mem_getPendingEventIds_iff {db : Database} {eventId : UUID} : eventId ∈ getPendingEventIds db ↔
    ∃ id bet, db.table.rows.lookup id = some bet ∧ bet.eventId = eventId ∧ bet.status = .pending := by
  constructor
  · exact of_mem_getPendingEventIds
  · rintro ⟨id, bet, row, rfl, pending⟩
    exact mem_getPendingEventIds row pending

theorem mem_order {db : Database} {eventId : UUID} : eventId ∈ round.order (getPendingEventIds db) ↔
    ∃ id bet, db.table.rows.lookup id = some bet ∧ bet.eventId = eventId ∧ bet.status = .pending :=
  (round.perm _).mem_iff.trans mem_getPendingEventIds_iff

/-- The tick leaves each bet as its round decides. -/
theorem tick_readable (readable : round.unreadable = none) (ready : Ready start.reconciler.world) :
    ∃ reconciler, round.tick start = .ok () { start with reconciler } ∧ Ready reconciler.world ∧
      reconciler.looked = start.reconciler.looked ++ round.order (getPendingEventIds start.reconciler.world.db) ∧
      ∃ now : UUID → Instant, ∀ id, reconciler.world.db.table.rows.lookup id =
        (start.reconciler.world.db.table.rows.lookup id).map fun bet =>
          bet.sweptTo (round.decides bet.eventId) (now bet.eventId) := by
  have distinct : (round.order (getPendingEventIds start.reconciler.world.db)).Nodup :=
    (round.perm _).nodup_iff.mpr (List.nodup_dedup _)
  obtain ⟨after, ends, ready', looked, now, rows⟩ :=
    Reconciler.iterations_end round.servers round.lookup distinct ready
  have swept : ∀ id, after.world.db.table.rows.lookup id =
      (start.reconciler.world.db.table.rows.lookup id).map fun bet =>
        bet.sweptTo (round.decides bet.eventId) (now bet.eventId) := by
    intro id
    rw [rows]
    cases row : start.reconciler.world.db.table.rows.lookup id with
    | none => rfl
    | some bet =>
      by_cases listed : bet.eventId ∈ round.order (getPendingEventIds start.reconciler.world.db)
      · simp only [Option.map_some, if_pos listed, reconciled_sweptTo readable]
      · have decided : bet.status ≠ .pending :=
          fun pending => listed (mem_order.mpr ⟨id, bet, row, rfl, pending⟩)
        simp only [Option.map_some, if_neg listed, sweptTo_decided _ decided]
  have reading := Reconciler.runTick_reads round.servers round.lookup
    (round_reads readable start.reconciler.world.db)
  by_cases empty : round.order (getPendingEventIds start.reconciler.world.db) = []
  · rw [empty] at ends
    obtain rfl : after = start.reconciler := by
      injection ends with _ same
      exact same.symm
    refine ⟨{ start.reconciler with world.logged := start.reconciler.world.logged ++ [.tickNoop] }, ?_, ready'.renew _ _,
      looked, now, swept⟩
    rw [if_pos (by simp [empty])] at reading
    simp only [Round.tick, reading]
    rfl
  · rw [if_neg (by simpa using empty)] at reading
    refine ⟨after, ?_, ready', looked, now, swept⟩
    simp only [Round.tick, reading, ends]

/-- However a tick ends, the loop goes on. -/
theorem loop_unreadable {exc : Exn} (rest : List Round) (unreadable : round.unreadable = some exc) :
    reconciliationLoop (round :: rest) start =
      reconciliationLoop rest { start with failed := start.failed ++ [exc] } := by
  rw [reconciliationLoop]
  exact bind_of_ok ((tryCatch_of_error (tick_unreadable unreadable)).trans (modify_eq _ _))

theorem loop_ticks {task : ReconciliationTask} (rest : List Round) (ticks : round.tick start = .ok () task) :
    reconciliationLoop (round :: rest) start = reconciliationLoop rest task := by
  rw [reconciliationLoop]
  exact bind_of_ok (tryCatch_of_ok ticks)

end

def Database.HasPending (db : Database) (eventId : UUID) : Prop :=
  ∃ id bet, db.table.rows.lookup id = some bet ∧ bet.eventId = eventId ∧ bet.status = .pending

section
variable [Pydantic]

theorem Sweeps.trans {s : Service} {tick tick' : Tick} {w w' : World} (first : Sweeps s tick w)
    (last : ∀ log, Sweeps { s with tick, log, db := w.db } tick' w') : Sweeps s tick' w' := by
  obtain ⟨events, log, reached⟩ := first
  obtain ⟨events', log', continued⟩ := last log
  exact ⟨events ++ events', log', run_append.mpr ⟨_, reached, continued⟩⟩

/-- The loop is a run of the reconciler that shares its database. -/
theorem loop_sweeps (rounds : List Round) {s : Service} {start : ReconciliationTask}
    (ready : Ready start.reconciler.world) (sweeps : Sweeps s .idle start.reconciler.world) :
    ∃ after, reconciliationLoop rounds start = .error .cancelledError after ∧
      Sweeps s .idle after.reconciler.world := by
  induction rounds generalizing start with
  | nil => exact ⟨{ start with cancelled := true }, rfl, sweeps⟩
  | cons round rest ih =>
    cases readable : round.unreadable with
    | some exc =>
      rw [loop_unreadable rest readable]
      exact ih ready sweeps
    | none =>
      obtain ⟨middle, ticks, ready', -⟩ := tick_readable readable ready
      rw [loop_ticks rest ticks]
      refine ih ready' (sweeps.trans fun log => ?_)
      obtain ⟨after, ends, swept⟩ := tick_sweeps round.servers round.lookup round.readPending
        (s := { s with tick := .idle, log, db := start.reconciler.world.db }) ready rfl rfl
        (round_reads readable _) (round.perm _)
      obtain rfl : after = middle := by
        simp only [Round.tick, ends] at ticks
        injection ticks with _ same
        exact congrArg ReconciliationTask.reconciler same
      exact swept

end

end BetSettlement.BetMaker
