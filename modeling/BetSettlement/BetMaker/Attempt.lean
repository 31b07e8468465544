import BetSettlement.BetMaker.UnitOfWork

/-!
# One attempt

Between two calls no transaction is open. A call that returns has settled the event in one commit,
and one that raises has rolled back, whichever statement failed.
-/

namespace BetSettlement.BetMaker
open Python Machine Std.Do

set_option mvcgen.warning false

/-- No other transaction is open. -/
def Alone (db : Database) (t : TxId) : Prop := ∀ u ux, u ≠ t → db.slots u ≠ .active ux

theorem alone_free {db : Database} {t : TxId} (inv : Inv db) (alone : Alone db t) (id : UUID) :
    db.table.blocker t id = none := by
  cases held : db.table.blocker t id with
  | none => rfl
  | some u =>
    obtain ⟨holder, other⟩ := Table.blocker_some.mp held
    obtain ⟨ux, active⟩ := inv.holder id u holder
    exact absurd active (alone u ux other)

theorem run_alone {db db' : Database} {t : TxId} {actions : List Action} (alone : Alone db t)
    (own : ∀ action ∈ actions, action.tx = t) (h : run step db actions = some db') : Alone db' t := by
  intro u ux other active
  rw [run_other_slot h fun action member => own action member ▸ other] at active
  exact alone u ux other active

/-- With nothing locked by others the SELECT takes every row that it found. -/
theorem visits_run {db : Database} {t : TxId} {tx : Transaction} {settlement : Settlement} {todo : List UUID}
    (inv : Inv db) (alone : Alone db t) (here : db.slots t = .active tx)
    (settles : tx.call.settlement = some settlement) (phase : tx.phase = .selecting todo)
    (matched : ∀ id ∈ todo, ∃ bet, db.table.rows.lookup id = some bet ∧
      getPendingLocked settlement.eventId bet = true) :
    ∃ db', run step db (todo.map (.visit t)) = some db' ∧ db'.table.rows = db.table.rows ∧
      db'.slots t = .active { tx with phase := .selecting [], taken := tx.taken ++ todo } := by
  induction todo generalizing db tx with
  | nil =>
    refine ⟨db, rfl, rfl, ?_⟩
    rw [here, List.append_nil, ← phase]
  | cons id rest ih =>
    obtain ⟨bet, row, accepted⟩ := matched id List.mem_cons_self
    have read := ((inv.owns t tx here).read_selecting phase id).trans row
    have outcome := Table.visit_taken.mpr ⟨alone_free inv alone id, bet, read, accepted⟩
    have next : step db (.visit t id) = some { db.setSlot t (.active (tx.take (id :: rest) id)) with
        table := db.table.lock t id } := by
      simp [step, Database.during, here, visit, settles, phase, outcome]
    have slot :
        ({ db.setSlot t (.active (tx.take (id :: rest) id)) with table := db.table.lock t id } : Database).slots t =
          .active (tx.take (id :: rest) id) := by simp
    obtain ⟨db', reached, rows, after⟩ := ih (step_inv inv next)
      (run_alone alone (by simp [Action.tx]) (run_cons.mpr ⟨_, next, run_nil.mpr rfl⟩)) slot settles
      (by simp [Transaction.take]) (fun key later => matched key (List.mem_cons_of_mem _ later))
    refine ⟨db', run_cons.mpr ⟨_, next, reached⟩, rows, ?_⟩
    rw [after]
    simp [Transaction.take]

theorem select_run {db : Database} {t : TxId} {tx : Transaction} {settlement : Settlement} (clock : Instant)
    (inv : Inv db) (alone : Alone db t) (here : db.slots t = .active tx)
    (settles : tx.call.settlement = some settlement) (phase : tx.phase = .opened) :
    ∃ db' tx', run step db (.select t ::
        (db.table.select t (getPendingLocked settlement.eventId)).map (.visit t) ++ [.fetch t clock]) = some db' ∧
      db'.table.rows = db.table.rows ∧ db'.slots t = .active tx' ∧ tx'.phase = .fetched ∧ tx'.call = tx.call ∧
      tx'.now = tx.now ∧ ∀ id, id ∈ tx'.taken ↔ ∃ bet, db.table.rows.lookup id = some bet ∧
        getPendingLocked settlement.eventId bet = true := by
  have own := inv.owns t tx here
  have found : ∀ id, id ∈ db.table.select t (getPendingLocked settlement.eventId) ↔
      ∃ bet, db.table.rows.lookup id = some bet ∧ getPendingLocked settlement.eventId bet = true := by
    intro id
    simp only [own.mem_select phase, getPendingLocked_iff]
  have first : step db (.select t) = some (db.setSlot t (.active (tx.selected
      (db.table.select t (getPendingLocked settlement.eventId))))) := by
    simp [step, Database.during, here, select, settles, phase]
  generalize db.table.select t (getPendingLocked settlement.eventId) = todo at found first ⊢
  have selected : (db.setSlot t (.active (tx.selected todo))).slots t = .active (tx.selected todo) := by simp
  obtain ⟨scanned, visits, rows, after⟩ := visits_run (step_inv inv first)
    (run_alone alone (by simp [Action.tx]) (run_cons.mpr ⟨_, first, run_nil.mpr rfl⟩)) selected settles rfl
    fun id member => (found id).mp member
  have last : step scanned (.fetch t clock) = some (scanned.setSlot t (.active (Transaction.fetched
      { tx.selected todo with phase := .selecting [], taken := tx.taken ++ todo } clock))) := by
    simp [step, Database.during, after, fetch, Transaction.selected]
  refine ⟨_, _, run_append.mpr ⟨scanned, run_cons.mpr ⟨_, first, visits⟩, run_cons.mpr ⟨_, last, run_nil.mpr rfl⟩⟩,
    rows, (setSlot_slots _ _ _ _).trans (if_pos rfl), fetched_phase _ _, fetched_call _ _, fetched_now _ _,
    fun id => ?_⟩
  rw [fetched_taken, own.opened phase, List.nil_append, found]

theorem update_run {db : Database} {t : TxId} {tx : Transaction} {settlement : Settlement} (inv : Inv db)
    (alone : Alone db t) (here : db.slots t = .active tx) (settles : tx.call.settlement = some settlement)
    (phase : tx.phase = .fetched) (some_taken : tx.taken ≠ []) :
    ∃ db', run step db [.update t] = some db' ∧ db'.table.rows = db.table.rows ∧
      db'.slots t = .active { tx with phase := .updated } := by
  have proceeds : (db.table.update t (settlement.update tx.now) tx.taken).isSome = true :=
    Table.update_isSome fun id _ => alone_free inv alone id
  obtain ⟨table, written⟩ := Option.isSome_iff_exists.mp proceeds
  have next : step db (.update t) = some { db.setSlot t (.active { tx with phase := .updated }) with table } := by
    simp [step, Database.during, here, update, settles, phase, some_taken, written]
  exact ⟨_, run_cons.mpr ⟨_, next, run_nil.mpr rfl⟩,
    (Table.update_updates (inv.owns t tx here).distinct written).rows, by simp⟩

theorem commit_run {db : Database} {t : TxId} {tx : Transaction} (inv : Inv db) (here : db.slots t = .active tx)
    (returned : tx.returned = true) :
    ∃ db', run step db [.commit t] = some db' ∧ db'.slots t = .committed tx ∧
      ∀ id, db'.table.rows.lookup id = (tx.version db.table.rows id).or (db.table.rows.lookup id) := by
  have next : step db (.commit t) = some { db.setSlot t (.committed tx) with table := db.table.commit t } := by
    simp [step, Database.during, here, commit, returned]
  refine ⟨_, run_cons.mpr ⟨_, next, run_nil.mpr rfl⟩, by simp, fun id => ?_⟩
  rw [Table.commit_rows, (inv.owns t tx here).written]

theorem abort_run {db : Database} {t : TxId} {tx : Transaction} (here : db.slots t = .active tx) :
    ∃ db', run step db [.abort t] = some db' ∧ db'.slots t = .aborted tx ∧ db'.table.rows = db.table.rows := by
  have next : step db (.abort t) = some (abort db t tx) := by simp [step, Database.during, here]
  exact ⟨_, run_cons.mpr ⟨_, next, run_nil.mpr rfl⟩, by simp [abort], rfl⟩

theorem begin_run {db : Database} {t : TxId} (unused : db.slots t = .unused) (call : Call) (clock now : Instant) :
    ∃ db', run step db [.begin t call clock now] = some db' ∧ db'.table = db.table ∧
      db'.slots t = .active { call, now, clock } := by
  have next : step db (.begin t call clock now) = some (db.setSlot t (.active { call, now, clock })) := by
    simp [step, unused]
  exact ⟨_, run_cons.mpr ⟨_, next, run_nil.mpr rfl⟩, rfl, by simp⟩

/-! ### One call of the interactor -/

/-- No transaction is open, and the numbers from `opened` on are free. -/
structure Ready (w : World) : Prop where
  inv : Inv w.db
  ended : ∀ t tx, w.db.slots t ≠ .active tx
  fresh : ∀ t, w.opened ≤ t → w.db.slots t = .unused

theorem start_ready (rows : AList fun _ : UUID => Bet) : Ready { db := .start rows } where
  inv := start_inv rows
  ended t tx active := by cases active
  fresh t _ := rfl

theorem Ready.renew {w : World} (ready : Ready w) (uow : PostgresUnitOfWork) (logged : List LogEntry) :
    Ready { w with uow, logged } :=
  ⟨ready.inv, ready.ended, ready.fresh⟩

/-- What transaction `t` has made of the database since it began with `call`. -/
def Transacted (db : Database) (t : TxId) (call : Call) (db' : Database) : Prop :=
  ∃ clock now actions, run step db (.begin t call clock now :: actions) = some db' ∧ ∀ action ∈ actions, action.tx = t

theorem Transacted.append {db db' db'' : Database} {t : TxId} {call : Call} {actions : List Action}
    (h : Transacted db t call db') (more : run step db' actions = some db'') (own : ∀ action ∈ actions, action.tx = t) :
    Transacted db t call db'' := by
  obtain ⟨clock, now, front, reached, first⟩ := h
  refine ⟨clock, now, front ++ actions, run_append.mpr ⟨db', reached, more⟩, fun action member => ?_⟩
  exact (List.mem_append.mp member).elim (first action) (own action)

theorem Transacted.inv {db db' : Database} {t : TxId} {call : Call} (h : Transacted db t call db') (inv : Inv db) :
    Inv db' := by
  obtain ⟨clock, now, actions, reached, -⟩ := h
  exact run_inv inv reached

theorem Transacted.other {db db' : Database} {t u : TxId} {call : Call} (h : Transacted db t call db') (other : u ≠ t) :
    db'.slots u = db.slots u := by
  obtain ⟨clock, now, actions, reached, own⟩ := h
  refine run_other_slot reached fun action member => ?_
  rcases List.mem_cons.mp member with rfl | later
  · exact other
  · exact own action later ▸ other

theorem Transacted.call {db db' : Database} {t : TxId} {call : Call} (h : Transacted db t call db') (inv : Inv db) :
    (db'.slots t).tx.map Transaction.call = some call := by
  obtain ⟨clock, now, actions, reached, -⟩ := h
  obtain ⟨begun, begins, rest⟩ := run_cons.mp reached
  have here : (begun.slots t).tx = some { call, now, clock } := congrArg Slot.tx (begin_slot begins).2
  obtain ⟨tx, found, grows⟩ := ((run_later (step_inv inv begins) rest).slots t).tx here
  rw [found, Option.map_some, grows.call]

theorem Transacted.ended {start w : World} {call : Call} (ready : Ready start) (idle : Ready w)
    (transacted : Transacted start.db start.opened call w.db) :
    (∃ tx, w.db.slots start.opened = .committed tx) ∨ ∃ tx, w.db.slots start.opened = .aborted tx := by
  have called := transacted.call ready.inv
  cases slot : w.db.slots start.opened with
  | unused => simp [slot, Slot.tx] at called
  | active tx => exact absurd slot (idle.ended start.opened tx)
  | committed tx => exact Or.inl ⟨tx, rfl⟩
  | aborted tx => exact Or.inr ⟨tx, rfl⟩

/-- The call that started in `start` has its transaction open, in this phase and with these rows. -/
structure During (server : Server) (start : World) (call : Call) (phase : Phase) (taken : List UUID) (w : World) :
    Prop where
  ready : Ready start
  transacted : Transacted start.db start.opened call w.db
  here : ∃ tx, w.db.slots start.opened = .active tx ∧ tx.call = call ∧ tx.now = server.now start.opened ∧
    tx.phase = phase ∧ tx.taken = taken
  rows : w.db.table.rows = start.db.table.rows
  opened : w.opened = start.opened + 1
  cm : w.uow.cm = some start.opened
  session : w.uow.session = some start.opened
  attempts : w.attempts = start.attempts
  disposed : w.disposed = start.disposed

/-- It has ended. -/
structure Ended (start : World) (call : Call) (w : World) : Prop where
  ready : Ready w
  transacted : Transacted start.db start.opened call w.db
  opened : w.opened = start.opened + 1
  attempts : w.attempts = start.attempts
  disposed : w.disposed = start.disposed

/-- A settlement of the bets that are PENDING. -/
def Settlement.apply (settlement : Settlement) (now : Instant) (bet : Bet) : Bet :=
  if getPendingLocked settlement.eventId bet then settlement.update now bet else bet

theorem Settlement.apply_eventId (settlement : Settlement) (now : Instant) (bet : Bet) :
    (settlement.apply now bet).eventId = bet.eventId := by
  unfold Settlement.apply
  split <;> rfl

theorem Settlement.apply_other {settlement : Settlement} {bet : Bet} (other : bet.eventId ≠ settlement.eventId)
    (now : Instant) : settlement.apply now bet = bet :=
  if_neg fun found => other (getPendingLocked_iff.mp found).1

theorem Settlement.apply_decided (settlement : Settlement) {bet : Bet} (decided : bet.status ≠ .pending)
    (now : Instant) : settlement.apply now bet = bet :=
  if_neg fun found => decided (getPendingLocked_iff.mp found).2

/-- A bet is settled once. -/
theorem Settlement.apply_apply {settlement later : Settlement} (decides : settlement.status ≠ .pending)
    (same : later.eventId = settlement.eventId) (now now' : Instant) (bet : Bet) :
    later.apply now' (settlement.apply now bet) = settlement.apply now bet := by
  by_cases found : getPendingLocked settlement.eventId bet = true
  · refine later.apply_decided ?_ now'
    rwa [Settlement.apply, if_pos found]
  · have kept : settlement.apply now bet = bet := if_neg found
    rw [kept, Settlement.apply, same, if_neg found]

def World.Pending (w : World) (eventId : UUID) (id : UUID) : Prop :=
  ∃ bet, w.db.table.rows.lookup id = some bet ∧ getPendingLocked eventId bet = true

def Server.Raises (server : Server) (t : TxId) (exc : Exc) : Prop := ∃ statement, server.fault t statement = some exc

/-! ### Rules for the statements -/

theorem perform_ok {w : World} {db : Database} {actions : List Action} (h : run step w.db actions = some db) :
    perform actions w = .ok () { w with db } := by
  unfold perform
  refine (bind_of_ok (get_eq w)).trans ?_
  simp only [h]
  exact modify_eq _ _

section
variable {P Q : World → Prop} {E : Exc → World → Prop} {actions : List Action}

/-- Actions that the database takes are performed, and nothing is raised. -/
theorem perform_spec (moves : ∀ w, P w → ∃ db, run step w.db actions = some db ∧ Q { w with db }) :
    ⦃fun w => ⌜P w⌝⦄ perform actions ⦃post⟨fun _ w => ⌜Q w⌝, fun exc w => ⌜E exc w⌝⟩⦄ := by
  rw [triple_iff]
  intro w holds
  obtain ⟨db, reached, after⟩ := moves w holds
  rw [perform_ok reached]
  exact after

/-- A statement raises only where the server says so, and has changed nothing then. -/
theorem execute_spec (server : Server) (t : TxId) (statement : Statement)
    (moves : ∀ w, P w → ∃ db, run step w.db actions = some db ∧ Q { w with db }) :
    ⦃fun w => ⌜P w⌝⦄ execute server t statement actions
      ⦃post⟨fun _ w => ⌜Q w ∧ server.fault t statement = none⌝, fun exc w => ⌜P w ∧ server.Raises t exc⌝⟩⦄ := by
  rw [triple_iff]
  intro w holds
  unfold execute
  cases fault : server.fault t statement with
  | some exc => exact ⟨holds, statement, fault⟩
  | none =>
    obtain ⟨db, reached, after⟩ := moves w holds
    simp only [perform_ok reached]
    exact ⟨after, trivial⟩

theorem sessionExit_spec (server : Server) (t : TxId)
    (commits : ∀ w, P w → server.fault t .commit = none → ∃ db, run step w.db [.commit t] = some db ∧ Q { w with db })
    (aborts : ∀ w, P w → ∀ exc, server.Raises t exc → ∃ db, run step w.db [.abort t] = some db ∧ E exc { w with db }) :
    ⦃fun w => ⌜P w⌝⦄ sessionExit server t none ⦃post⟨fun _ w => ⌜Q w⌝, fun exc w => ⌜E exc w⌝⟩⦄ := by
  rw [triple_iff]
  intro w holds
  unfold sessionExit
  cases fault : server.fault t .commit with
  | none =>
    obtain ⟨db, reached, after⟩ := commits w holds fault
    simp only [perform_ok reached]
    exact after
  | some exc =>
    obtain ⟨db, reached, after⟩ := aborts w holds exc ⟨.commit, fault⟩
    simp only [bind_of_ok (perform_ok reached)]
    exact after

/-- Leaving the block is leaving the context manager of its transaction. -/
theorem aexit_spec (server : Server) {t : TxId} (exc : Option Exc) (held : ∀ w, P w → w.uow.cm = some t)
    (exits : ⦃fun w => ⌜P w⌝⦄ sessionExit server t exc
      ⦃post⟨fun _ w => ⌜Q { w with uow := {} }⌝, fun exc w => ⌜E exc w⌝⟩⦄) :
    ⦃fun w => ⌜P w⌝⦄ PostgresUnitOfWork.aexit server exc ⦃post⟨fun _ w => ⌜Q w⌝, fun exc w => ⌜E exc w⌝⟩⦄ := by
  rw [triple_iff] at exits ⊢
  intro w holds
  have ended := exits w holds
  unfold PostgresUnitOfWork.aexit
  rw [bind_of_ok (get_eq w)]
  simp only [held w holds]
  cases left : sessionExit server t exc w with
  | ok _ w' =>
    rw [left] at ended
    rw [bind_of_ok left]
    exact ended
  | error exc w' =>
    rw [left] at ended
    rw [bind_of_error left]
    exact ended

end

section
variable {server : Server} {start w : World} {call : Call} {phase : Phase} {taken : List UUID}

theorem During.inv (during : During server start call phase taken w) : Inv w.db :=
  during.transacted.inv during.ready.inv

theorem During.alone (during : During server start call phase taken w) : Alone w.db start.opened := by
  intro u ux other
  rw [during.transacted.other other]
  exact during.ready.ended u ux

theorem During.proceeds {phase' : Phase} {taken' : List UUID} {actions : List Action} {db : Database} {tx : Transaction}
    (during : During server start call phase taken w) (own : ∀ action ∈ actions, action.tx = start.opened)
    (h : run step w.db actions = some db) (rows : db.table.rows = w.db.table.rows)
    (here : db.slots start.opened = .active tx) (called : tx.call = call) (now : tx.now = server.now start.opened)
    (reached : tx.phase = phase') (took : tx.taken = taken') :
    During server start call phase' taken' { w with db } where
  ready := during.ready
  transacted := during.transacted.append h own
  here := ⟨tx, here, called, now, reached, took⟩
  rows := rows.trans during.rows
  opened := during.opened
  cm := during.cm
  session := during.session
  attempts := during.attempts
  disposed := during.disposed

theorem During.logs (during : During server start call phase taken w) (logged : List LogEntry) :
    During server start call phase taken { w with logged } :=
  ⟨during.ready, during.transacted, during.here, during.rows, during.opened, during.cm, during.session,
    during.attempts, during.disposed⟩

theorem During.ends {actions : List Action} {db : Database} (during : During server start call phase taken w)
    (own : ∀ action ∈ actions, action.tx = start.opened) (h : run step w.db actions = some db)
    (there : ∀ tx, db.slots start.opened ≠ .active tx) (uow : PostgresUnitOfWork) :
    Ended start call { w with db, uow } where
  ready := {
    inv := run_inv during.inv h
    ended t tx := by
      by_cases same : t = start.opened
      · exact same ▸ there tx
      · exact run_alone during.alone own h t tx same
    fresh t later := by
      have past : start.opened < t := during.opened.ge.trans later
      rw [(during.transacted.append h own).other past.ne', during.ready.fresh t past.le] }
  transacted := during.transacted.append h own
  opened := during.opened
  attempts := during.attempts
  disposed := during.disposed

theorem aenter_spec (server : Server) (call : Call) (start : World) {E : Exc → World → Prop} :
    ⦃fun w => ⌜w = start ∧ Ready w⌝⦄ PostgresUnitOfWork.aenter server call
      ⦃post⟨fun _ w => ⌜During server start call .opened [] w⌝, fun exc w => ⌜E exc w⌝⟩⦄ := by
  rw [triple_iff]
  rintro w ⟨rfl, ready⟩
  obtain ⟨db, begins, table, here⟩ := begin_run (ready.fresh w.opened le_rfl) call (server.clock w.opened)
    (server.now w.opened)
  unfold PostgresUnitOfWork.aenter
  rw [bind_of_ok (get_eq w)]
  simp only [bind_of_ok (modify_eq _ w)]
  rw [bind_of_ok (@perform_ok { w with opened := w.opened + 1, uow.cm := some w.opened } db _ begins)]
  exact ⟨ready, ⟨_, _, [], begins, by simp⟩, ⟨_, here, rfl, rfl, rfl, rfl⟩, congrArg Table.rows table, rfl, rfl, rfl,
    rfl, rfl⟩

theorem During.selects {settlement : Settlement} (settles : call.settlement = some settlement)
    (during : During server start call .opened [] w) :
    ∃ db, run step w.db (.select start.opened ::
        (w.db.table.select start.opened (getPendingLocked settlement.eventId)).map (.visit start.opened) ++
        [.fetch start.opened (server.clock start.opened)]) = some db ∧
      During server start call .fetched (db.taken start.opened) { w with db } ∧
      ∀ id, id ∈ db.taken start.opened ↔ start.Pending settlement.eventId id := by
  obtain ⟨tx, here, rfl, now, phase, -⟩ := during.here
  obtain ⟨db, tx', selects, rows, after, fetched, called, same, found⟩ :=
    select_run (server.clock start.opened) during.inv during.alone here settles phase
  have own : ∀ action ∈ (Action.select start.opened ::
      (w.db.table.select start.opened (getPendingLocked settlement.eventId)).map (.visit start.opened) ++
      [.fetch start.opened (server.clock start.opened)]), action.tx = start.opened := by
    simp only [List.cons_append, List.mem_cons, List.mem_append, List.mem_map, List.not_mem_nil, or_false]
    rintro action (rfl | ⟨id, -, rfl⟩ | rfl) <;> rfl
  have taken : db.taken start.opened = tx'.taken := by simp [Database.taken, after]
  refine ⟨db, selects, during.proceeds own selects rows after called (same.trans now) fetched taken.symm, fun id => ?_⟩
  rw [taken, found, during.rows]
  rfl

theorem selectPendingLocked_spec (server : Server) (start : World) {settlement : Settlement}
    (settles : call.settlement = some settlement) :
    ⦃fun w => ⌜During server start call .opened [] w⌝⦄ selectPendingLocked server start.opened settlement.eventId
      ⦃post⟨fun betIds w => ⌜During server start call .fetched betIds w ∧
          (∀ id, id ∈ betIds ↔ start.Pending settlement.eventId id) ∧ server.fault start.opened .select = none⌝,
        fun exc w => ⌜During server start call .opened [] w ∧ server.Raises start.opened exc⌝⟩⦄ := by
  rw [triple_iff]
  intro w during
  have moves : ∀ s, s = w → ∃ db, run step s.db (.select start.opened ::
      (w.db.table.select start.opened (getPendingLocked settlement.eventId)).map (.visit start.opened) ++
      [.fetch start.opened (server.clock start.opened)]) = some db ∧
        During server start call .fetched (db.taken start.opened) { s with db } ∧
        ∀ id, id ∈ db.taken start.opened ↔ start.Pending settlement.eventId id := by
    rintro s rfl
    exact during.selects settles
  have executes := triple_iff.mp (@execute_spec (· = w) (fun s => During server start call .fetched
    (s.db.taken start.opened) s ∧ ∀ id, id ∈ s.db.taken start.opened ↔ start.Pending settlement.eventId id) _ server
    start.opened .select moves) w rfl
  unfold selectPendingLocked
  rw [bind_of_ok (get_eq w)]
  cases executed : execute server start.opened .select (.select start.opened ::
      (w.db.table.select start.opened (getPendingLocked settlement.eventId)).map (.visit start.opened) ++
      [.fetch start.opened (server.clock start.opened)]) w with
  | ok _ w' =>
    rw [executed] at executes
    obtain ⟨⟨after, found⟩, unfaulted⟩ := executes
    simp only [bind_of_ok executed]
    exact ⟨after, found, unfaulted⟩
  | error exc w' =>
    rw [executed] at executes
    obtain ⟨rfl, fault⟩ := executes
    simp only [bind_of_error executed]
    exact ⟨during, fault⟩

theorem During.updates {settlement : Settlement} (settles : call.settlement = some settlement)
    (during : During server start call .fetched taken w) (some_taken : taken ≠ []) :
    ∃ db, run step w.db [.update start.opened] = some db ∧ During server start call .updated taken { w with db } := by
  obtain ⟨tx, here, rfl, now, phase, rfl⟩ := during.here
  obtain ⟨db, updates, rows, after⟩ := update_run during.inv during.alone here settles phase some_taken
  exact ⟨db, updates, during.proceeds (by simp [Action.tx]) updates rows after rfl now rfl rfl⟩

theorem update_spec (server : Server) (start : World) {settlement : Settlement}
    (settles : call.settlement = some settlement) (taken : List UUID) (some_taken : taken ≠ []) :
    ⦃fun w => ⌜During server start call .fetched taken w⌝⦄ execute server start.opened .update [.update start.opened]
      ⦃post⟨fun _ w => ⌜During server start call .updated taken w ∧ server.fault start.opened .update = none⌝,
        fun exc w => ⌜During server start call .fetched taken w ∧ server.Raises start.opened exc⌝⟩⦄ :=
  execute_spec server start.opened .update fun _ during => during.updates settles some_taken

theorem During.aborts (during : During server start call phase taken w) :
    ∃ db, run step w.db [.abort start.opened] = some db ∧ (∀ uow, Ended start call { w with db, uow }) ∧
      (∃ tx, db.slots start.opened = .aborted tx) ∧ db.table.rows = start.db.table.rows := by
  obtain ⟨tx, here, -⟩ := during.here
  obtain ⟨db, aborts, after, rows⟩ := abort_run here
  exact ⟨db, aborts, during.ends (by simp [Action.tx]) aborts (by simp [after]), ⟨tx, after⟩, rows.trans during.rows⟩

/-- The block has returned, with an UPDATE of the rows that it took or without one. -/
def Returned (server : Server) (start : World) (call : Call) (settlement : Settlement) (w : World) : Prop :=
  ∃ phase taken, During server start call phase taken w ∧ (phase = .fetched ∧ taken = [] ∨ phase = .updated) ∧
    ∀ id, id ∈ taken ↔ start.Pending settlement.eventId id

theorem Returned.commits {settlement : Settlement} (settles : call.settlement = some settlement)
    (returned : Returned server start call settlement w) :
    ∃ db, run step w.db [.commit start.opened] = some db ∧ (∀ uow, Ended start call { w with db, uow }) ∧
      (∃ tx, db.slots start.opened = .committed tx) ∧
      ∀ id, db.table.rows.lookup id =
        (start.db.table.rows.lookup id).map (settlement.apply (server.now start.opened)) := by
  obtain ⟨phase, taken, during, way, found⟩ := returned
  obtain ⟨tx, here, rfl, now, rfl, rfl⟩ := during.here
  have done : tx.returned = true := by
    unfold Transaction.returned
    rcases way with ⟨fetched, none⟩ | updated <;> simp [*]
  obtain ⟨db, commits, after, rows⟩ := commit_run during.inv here done
  refine ⟨db, commits, during.ends (by simp [Action.tx]) commits (by simp [after]), ⟨tx, after⟩, fun id => ?_⟩
  rw [rows, returned_version (during.inv.owns _ tx here) settles done, during.rows, now]
  by_cases member : id ∈ tx.taken
  · obtain ⟨bet, row, accepted⟩ := (found id).mp member
    simp [member, row, Settlement.apply, accepted]
  · rw [if_neg member, Option.none_or]
    cases row : start.db.table.rows.lookup id with
    | none => rfl
    | some bet =>
      have refused : getPendingLocked settlement.eventId bet ≠ true :=
        fun accepted => member ((found id).mpr ⟨bet, row, accepted⟩)
      simp [Settlement.apply, refused]

/-- The call has returned. -/
structure Settled (server : Server) (start : World) (call : Call) (settlement : Settlement) (w : World) : Prop where
  ended : Ended start call w
  committed : ∃ tx, w.db.slots start.opened = .committed tx
  rows : ∀ id, w.db.table.rows.lookup id =
    (start.db.table.rows.lookup id).map (settlement.apply (server.now start.opened))

/-- Unless the event had no PENDING bet, none of these statements has failed. -/
def Unfaulted (server : Server) (start : World) (eventId : UUID) (statements : List Statement) : Prop :=
  (∃ id, start.Pending eventId id) → ∀ statement ∈ statements, server.fault start.opened statement = none

theorem Unfaulted.concat {eventId : UUID} {statements : List Statement} {statement : Statement}
    (before : Unfaulted server start eventId statements) (unfaulted : server.fault start.opened statement = none) :
    Unfaulted server start eventId (statements ++ [statement]) := by
  intro pending other member
  rcases List.mem_append.mp member with early | last
  · exact before pending other early
  · exact List.mem_singleton.mp last ▸ unfaulted

/-- The call has raised. -/
structure Failed (server : Server) (start : World) (call : Call) (exc : Exc) (w : World) : Prop where
  ended : Ended start call w
  aborted : ∃ tx, w.db.slots start.opened = .aborted tx
  rows : w.db.table.rows = start.db.table.rows
  raises : server.Raises start.opened exc

theorem aexit_returned_spec {settlement : Settlement} (settles : call.settlement = some settlement) :
    ⦃fun w => ⌜Returned server start call settlement w ∧ Unfaulted server start settlement.eventId [.select, .update]⌝⦄
      PostgresUnitOfWork.aexit server none
      ⦃post⟨fun _ w => ⌜Settled server start call settlement w ∧
          Unfaulted server start settlement.eventId [.select, .update, .commit]⌝,
        fun exc w => ⌜Failed server start call exc w⌝⟩⦄ := by
  refine aexit_spec server none (fun w ⟨⟨_, _, during, _⟩, _⟩ => during.cm) (sessionExit_spec server start.opened ?_ ?_)
  · rintro w ⟨returned, before⟩ unfaulted
    obtain ⟨db, commits, ended, committed, rows⟩ := returned.commits settles
    exact ⟨db, commits, ⟨ended _, committed, rows⟩, before.concat unfaulted⟩
  · rintro w ⟨⟨_, _, during, -⟩, -⟩ exc fault
    obtain ⟨db, aborts, ended, aborted, rows⟩ := during.aborts
    exact ⟨db, aborts, ended w.uow, aborted, rows, fault⟩

theorem aexit_raised_spec (call : Call) (exc : Exc) :
    ⦃fun w => ⌜(∃ phase taken, During server start call phase taken w) ∧ server.Raises start.opened exc⌝⦄
      PostgresUnitOfWork.aexit server (some exc)
      ⦃post⟨fun _ w => ⌜Failed server start call exc w⌝, fun exc w => ⌜Failed server start call exc w⌝⟩⦄ := by
  refine aexit_spec server (some exc) (fun w ⟨⟨_, _, during⟩, _⟩ => during.cm) (perform_spec ?_)
  rintro w ⟨⟨_, _, during⟩, fault⟩
  obtain ⟨db, aborts, ended, aborted, rows⟩ := during.aborts
  exact ⟨db, aborts, ended _, aborted, rows, fault⟩

/-- The block of both interactors. -/
def settlePending {α : Type} (server : Server) (eventId : UUID) (noop : TxId → LogEntry × α)
    (done : TxId → List UUID → LogEntry × α) : Coroutine α := do
  let t ← PostgresUnitOfWork.getSession
  let betIds ← selectPendingLocked server t eventId
  if betIds.isEmpty then
    log (noop t).1
    pure (noop t).2
  else
    execute server t .update [.update t]
    log (done t betIds).1
    pure (done t betIds).2

theorem settlePending_spec {α : Type} (server : Server) (start : World) {settlement : Settlement}
    (settles : call.settlement = some settlement) (noop : TxId → LogEntry × α)
    (done : TxId → List UUID → LogEntry × α) :
    ⦃fun w => ⌜During server start call .opened [] w⌝⦄ settlePending server settlement.eventId noop done
      ⦃post⟨fun _ w => ⌜Returned server start call settlement w ∧
          Unfaulted server start settlement.eventId [.select, .update]⌝,
        fun exc w => ⌜(∃ phase taken, During server start call phase taken w) ∧ server.Raises start.opened exc⌝⟩⦄ := by
  have selects := selectPendingLocked_spec server start settles
  have updates := update_spec server start settles
  mvcgen [settlePending, PostgresUnitOfWork.getSession]
  case vc1.h_1 =>
    rename_i w during t held
    obtain rfl : t = start.opened := Option.some.inj (held.symm.trans during.session)
    mvcgen [selects, updates, log]
    case vc2.post.success.isTrue =>
      rename_i betIds empty _ fetched _
      obtain ⟨during, found, -⟩ := fetched
      have none_taken : betIds = [] := List.isEmpty_iff.mp empty
      refine ⟨⟨.fetched, betIds, during.logs _, Or.inl ⟨rfl, none_taken⟩, found⟩, ?_⟩
      rintro ⟨id, pending⟩
      rw [← found, none_taken] at pending
      cases pending
    case vc4.some_taken =>
      rename_i present _ _
      simpa using present
    case vc5.post.success.isFalse.pre =>
      rename_i fetched
      exact fetched.1
    case vc6.post.success.isFalse.post.success =>
      rename_i betIds _ _ fetched _ _ updated _
      obtain ⟨-, found, selected⟩ := fetched
      obtain ⟨during, written⟩ := updated
      refine ⟨⟨.updated, betIds, during.logs _, Or.inr rfl, found⟩, fun _ => ?_⟩
      simp [selected, written]
    all_goals exact fun during fault => ⟨⟨_, _, during⟩, fault⟩
  case vc2.h_2 =>
    rename_i w during closed
    cases closed.symm.trans during.session

/-- A call that returns has settled, and one that raises has left the rows alone. -/
theorem interactor_spec {α : Type} (server : Server) (start : World) {settlement : Settlement}
    (settles : call.settlement = some settlement) (noop : TxId → LogEntry × α)
    (done : TxId → List UUID → LogEntry × α) :
    ⦃fun w => ⌜w = start ∧ Ready w⌝⦄
      asyncWith (PostgresUnitOfWork.aenter server call) (PostgresUnitOfWork.aexit server)
        (settlePending server settlement.eventId noop done)
      ⦃post⟨fun _ w => ⌜Settled server start call settlement w ∧
          Unfaulted server start settlement.eventId [.select, .update, .commit]⌝,
        fun exc w => ⌜Failed server start call exc w⌝⟩⦄ :=
  asyncWith_spec (aenter_spec server call start) (settlePending_spec server start settles noop done)
    (fun _ => aexit_returned_spec settles) (aexit_raised_spec call)

theorem settleBetsForEvent_ends (server : Server) (start : World) (eventId : UUID)
    (terminalState : EventTerminalState) (settledVia : SettledVia) :
    ⦃fun w => ⌜w = start ∧ Ready w⌝⦄ settleBetsForEvent server eventId terminalState settledVia
      ⦃post⟨fun _ w => ⌜Settled server start (.settleBetsForEvent eventId terminalState settledVia)
            { eventId, status := terminalToStatus terminalState, settledVia } w ∧
          Unfaulted server start eventId [.select, .update, .commit]⌝,
        fun exc w => ⌜Failed server start (.settleBetsForEvent eventId terminalState settledVia) exc w⌝⟩⦄ :=
  @interactor_spec (.settleBetsForEvent eventId terminalState settledVia) SettleResult server start _ rfl
    (fun t => (.settleNoop eventId settledVia, ⟨eventId, terminalState, 0, [], settledVia, server.clock t⟩))
    fun t betIds => (.settleCommitted eventId betIds settledVia (terminalToStatus terminalState),
      ⟨eventId, terminalState, betIds.length, betIds, settledVia, server.clock t⟩)

theorem cancelBetsForEvent_ends (server : Server) (start : World) (eventId : UUID) :
    ⦃fun w => ⌜w = start ∧ Ready w⌝⦄ cancelBetsForEvent server eventId
      ⦃post⟨fun _ w => ⌜Settled server start (.cancelBetsForEvent eventId)
            { eventId, status := .cancelled, settledVia := .reconciler } w ∧
          Unfaulted server start eventId [.select, .update, .commit]⌝,
        fun exc w => ⌜Failed server start (.cancelBetsForEvent eventId) exc w⌝⟩⦄ := by
  have ends := @interactor_spec (.cancelBetsForEvent eventId) CancelResult server start _ rfl
    (fun _ => (.cancelNoop eventId, ⟨eventId, 0, [], server.clock start.opened⟩))
    fun _ betIds => (.cancelCommitted eventId betIds, ⟨eventId, betIds.length, betIds, server.clock start.opened⟩)
  rw [triple_iff] at ends ⊢
  -- the clock is read in `start`, before anything has changed
  rintro w ⟨rfl, ready⟩
  exact ends w ⟨rfl, ready⟩

theorem settleBetsForEvent_returns {eventId : UUID} {terminalState : EventTerminalState} {settledVia : SettledVia}
    {result : SettleResult} {w' : World} (ready : Ready w)
    (called : settleBetsForEvent server eventId terminalState settledVia w = .ok result w') :
    Settled server w (.settleBetsForEvent eventId terminalState settledVia)
      { eventId, status := terminalToStatus terminalState, settledVia } w' := by
  have ends := triple_iff.mp (settleBetsForEvent_ends server w eventId terminalState settledVia) w ⟨rfl, ready⟩
  rw [called] at ends
  exact ends.1

theorem settleBetsForEvent_raises {eventId : UUID} {terminalState : EventTerminalState} {settledVia : SettledVia}
    {exc : Exc} {w' : World} (ready : Ready w)
    (called : settleBetsForEvent server eventId terminalState settledVia w = .error exc w') :
    Failed server w (.settleBetsForEvent eventId terminalState settledVia) exc w' := by
  have ends := triple_iff.mp (settleBetsForEvent_ends server w eventId terminalState settledVia) w ⟨rfl, ready⟩
  rw [called] at ends
  exact ends

end

end BetSettlement.BetMaker
