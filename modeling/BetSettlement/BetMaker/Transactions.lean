import BetSettlement.BetMaker.Bets
import BetSettlement.Machine.RowLocks
import BetSettlement.Machine.Runs

/-!
# Transactions on the bets table

Each interactor runs its statements in one `async with uow:` block, which commits when the block
returns and rolls back when it raises. Any number of blocks are open at once, and a
`SELECT … FOR UPDATE SKIP LOCKED` visits its rows one at a time.
-/

namespace BetSettlement.BetMaker
open Python Machine

abbrev TxId := Nat

inductive Phase where
  | opened
  | selecting (todo : List UUID)
  | fetched
  | updated
  | inserted (bet : Bet)
  deriving DecidableEq

/-- `now` is the server's, `clock` is Python's. `snapshot` and `skipped` record what the SELECT met. -/
structure Transaction where
  call : Call
  now : Instant
  clock : Instant
  phase : Phase := .opened
  snapshot : List UUID := []
  taken : List UUID := []
  skipped : List (UUID × TxId) := []
  deriving DecidableEq

inductive Slot where
  | unused
  | active (tx : Transaction)
  | committed (tx : Transaction)
  | aborted (tx : Transaction)
  deriving DecidableEq

def Slot.tx : Slot → Option Transaction
  | .unused => none
  | .active tx | .committed tx | .aborted tx => some tx

structure Database where
  table : Table UUID Bet TxId := {}
  slots : TxId → Slot := fun _ => .unused

def Database.setSlot (db : Database) (t : TxId) (slot : Slot) : Database :=
  { db with slots := Function.update db.slots t slot }

def Database.status (db : Database) (id : UUID) : Option BetStatus := (db.table.rows.lookup id).map Bet.status

inductive Action where
  | begin (t : TxId) (call : Call) (clock now : Instant)
  | select (t : TxId)
  | visit (t : TxId) (id : UUID)
  | fetch (t : TxId) (clock : Instant)
  | update (t : TxId)
  | insert (t : TxId) (id : UUID)
  | commit (t : TxId)
  | abort (t : TxId)
  deriving DecidableEq

def Action.tx : Action → TxId
  | .begin t _ _ _ | .select t | .visit t _ | .fetch t _ | .update t | .insert t _ | .commit t | .abort t => t

def Transaction.selected (tx : Transaction) (found : List UUID) : Transaction :=
  { tx with phase := .selecting found, snapshot := found }

def Transaction.take (tx : Transaction) (todo : List UUID) (id : UUID) : Transaction :=
  { tx with phase := .selecting (todo.erase id), taken := tx.taken ++ [id] }

def Transaction.skip (tx : Transaction) (todo : List UUID) (id : UUID) (holder : TxId) : Transaction :=
  { tx with phase := .selecting (todo.erase id), skipped := tx.skipped ++ [(id, holder)] }

def Transaction.drop (tx : Transaction) (todo : List UUID) (id : UUID) : Transaction :=
  { tx with phase := .selecting (todo.erase id) }

/-- `settled_at` is read after the SELECT, `cancelled_at` was read before the block. -/
def Transaction.fetched (tx : Transaction) (clock : Instant) : Transaction :=
  match tx.call with
  | .settleBetsForEvent .. => { tx with phase := .fetched, clock }
  | _ => { tx with phase := .fetched }

/-- The block has returned: without an UPDATE where the SELECT found no row it could lock. -/
def Transaction.returned (tx : Transaction) : Bool :=
  match tx.phase with
  | .fetched => tx.taken.isEmpty
  | .updated | .inserted _ => true
  | .opened | .selecting _ => false

def select (db : Database) (t : TxId) (tx : Transaction) : Option Database :=
  match tx.call.settlement, tx.phase with
  | some settlement, .opened =>
    some (db.setSlot t (.active (tx.selected (db.table.select t (getPendingLocked settlement.eventId)))))
  | _, _ => none

def visit (db : Database) (t : TxId) (tx : Transaction) (id : UUID) : Option Database :=
  match tx.call.settlement, tx.phase with
  | some settlement, .selecting todo =>
    if id ∈ todo then
      match db.table.visit t (getPendingLocked settlement.eventId) id with
      | .taken => some { db.setSlot t (.active (tx.take todo id)) with table := db.table.lock t id }
      | .skipped holder => some (db.setSlot t (.active (tx.skip todo id holder)))
      | .dropped => some (db.setSlot t (.active (tx.drop todo id)))
    else none
  | _, _ => none

def fetch (db : Database) (t : TxId) (tx : Transaction) (clock : Instant) : Option Database :=
  match tx.phase with
  | .selecting [] => some (db.setSlot t (.active (tx.fetched clock)))
  | _ => none

/-- The UPDATE filters on the ids alone. -/
def update (db : Database) (t : TxId) (tx : Transaction) : Option Database :=
  match tx.call.settlement, tx.phase with
  | some settlement, .fetched =>
    if tx.taken.isEmpty then none
    else (db.table.update t (settlement.update tx.now) tx.taken).map fun table =>
      { db.setSlot t (.active { tx with phase := .updated }) with table }
  | _, _ => none

/-- `id` is the primary key that `uuid4` drew. -/
def insert (db : Database) (t : TxId) (tx : Transaction) (id : UUID) : Option Database :=
  match tx.call, tx.phase with
  | .placeBet eventId amount, .opened =>
    match Bet.create id eventId amount tx.now with
    | none => none
    | some bet => (db.table.insert t id bet).map fun table =>
      { db.setSlot t (.active { tx with phase := .inserted bet }) with table }
  | _, _ => none

def commit (db : Database) (t : TxId) (tx : Transaction) : Option Database :=
  if tx.returned then some { db.setSlot t (.committed tx) with table := db.table.commit t } else none

def abort (db : Database) (t : TxId) (tx : Transaction) : Database :=
  { db.setSlot t (.aborted tx) with table := db.table.abort t }

/-- `body` of the transaction that `t` has open. -/
def Database.during (db : Database) (t : TxId) (body : Transaction → Option Database) : Option Database :=
  match db.slots t with
  | .active tx => body tx
  | _ => none

def step (db : Database) : Action → Option Database
  | .begin t call clock now =>
    match db.slots t with
    | .unused => some (db.setSlot t (.active { call, now, clock }))
    | _ => none
  | .select t => db.during t (select db t)
  | .visit t id => db.during t (visit db t · id)
  | .fetch t clock => db.during t (fetch db t · clock)
  | .update t => db.during t (update db t)
  | .insert t id => db.during t (insert db t · id)
  | .commit t => db.during t (commit db t)
  | .abort t => db.during t fun tx => some (abort db t tx)

/-- What the call returns to its caller once the block has committed. -/
def Transaction.settleResult (tx : Transaction) : Option SettleResult :=
  match tx.call with
  | .settleBetsForEvent eventId terminalState settledVia =>
    some { eventId, terminalState, settledCount := tx.taken.length, settledBetIds := tx.taken, settledVia,
           settledAt := tx.clock }
  | _ => none

def Transaction.cancelResult (tx : Transaction) : Option CancelResult :=
  match tx.call with
  | .cancelBetsForEvent eventId =>
    some { eventId, cancelledCount := tx.taken.length, cancelledBetIds := tx.taken, cancelledAt := tx.clock }
  | _ => none

def Transaction.betRead (tx : Transaction) : Option BetRead :=
  match tx.phase with
  | .inserted bet => some (BetRead.modelValidate bet)
  | _ => none

theorem fetched_eq (tx : Transaction) (clock : Instant) :
    ∃ reading, tx.fetched clock = { tx with phase := .fetched, clock := reading } := by
  unfold Transaction.fetched
  split
  · exact ⟨clock, rfl⟩
  · exact ⟨tx.clock, rfl⟩

@[simp] theorem fetched_phase (tx : Transaction) (clock : Instant) : (tx.fetched clock).phase = .fetched := by
  obtain ⟨_, same⟩ := fetched_eq tx clock
  rw [same]

@[simp] theorem fetched_call (tx : Transaction) (clock : Instant) : (tx.fetched clock).call = tx.call := by
  obtain ⟨_, same⟩ := fetched_eq tx clock
  rw [same]

@[simp] theorem fetched_now (tx : Transaction) (clock : Instant) : (tx.fetched clock).now = tx.now := by
  obtain ⟨_, same⟩ := fetched_eq tx clock
  rw [same]

@[simp] theorem fetched_snapshot (tx : Transaction) (clock : Instant) :
    (tx.fetched clock).snapshot = tx.snapshot := by
  obtain ⟨_, same⟩ := fetched_eq tx clock
  rw [same]

@[simp] theorem fetched_taken (tx : Transaction) (clock : Instant) : (tx.fetched clock).taken = tx.taken := by
  obtain ⟨_, same⟩ := fetched_eq tx clock
  rw [same]

@[simp] theorem fetched_skipped (tx : Transaction) (clock : Instant) : (tx.fetched clock).skipped = tx.skipped := by
  obtain ⟨_, same⟩ := fetched_eq tx clock
  rw [same]

/-! ### What a step can do -/

inductive Moves (db : Database) : Action → Database → Prop where
  | begin {t call clock now} (unused : db.slots t = .unused) :
      Moves db (.begin t call clock now) (db.setSlot t (.active { call, now, clock }))
  | select {t tx settlement} (here : db.slots t = .active tx) (settles : tx.call.settlement = some settlement)
      (phase : tx.phase = .opened) :
      Moves db (.select t)
        (db.setSlot t (.active (tx.selected (db.table.select t (getPendingLocked settlement.eventId)))))
  | take {t tx settlement todo id} (here : db.slots t = .active tx)
      (settles : tx.call.settlement = some settlement) (phase : tx.phase = .selecting todo)
      (member : id ∈ todo) (free : db.table.blocker t id = none)
      (matched : ∃ bet, db.table.read t id = some bet ∧ getPendingLocked settlement.eventId bet = true) :
      Moves db (.visit t id) { db.setSlot t (.active (tx.take todo id)) with table := db.table.lock t id }
  | skip {t tx settlement todo id holder} (here : db.slots t = .active tx)
      (settles : tx.call.settlement = some settlement) (phase : tx.phase = .selecting todo)
      (member : id ∈ todo) (held : db.table.blocker t id = some holder) :
      Moves db (.visit t id) (db.setSlot t (.active (tx.skip todo id holder)))
  | drop {t tx settlement todo id} (here : db.slots t = .active tx)
      (settles : tx.call.settlement = some settlement) (phase : tx.phase = .selecting todo)
      (member : id ∈ todo) (free : db.table.blocker t id = none)
      (unmatched : ∀ bet, db.table.read t id = some bet → getPendingLocked settlement.eventId bet = false) :
      Moves db (.visit t id) (db.setSlot t (.active (tx.drop todo id)))
  | fetch {t tx clock} (here : db.slots t = .active tx) (phase : tx.phase = .selecting []) :
      Moves db (.fetch t clock) (db.setSlot t (.active (tx.fetched clock)))
  | update {t tx settlement table} (here : db.slots t = .active tx)
      (settles : tx.call.settlement = some settlement) (phase : tx.phase = .fetched) (some_taken : tx.taken ≠ [])
      (written : db.table.update t (settlement.update tx.now) tx.taken = some table) :
      Moves db (.update t) { db.setSlot t (.active { tx with phase := .updated }) with table }
  | insert {t tx eventId amount id bet} (here : db.slots t = .active tx)
      (places : tx.call = .placeBet eventId amount) (phase : tx.phase = .opened)
      (row : Bet.create id eventId amount tx.now = some bet) (fresh : db.table.read t id = none)
      (free : db.table.blocker t id = none) :
      Moves db (.insert t id)
        { db.setSlot t (.active { tx with phase := .inserted bet }) with table := db.table.put t id bet }
  | commit {t tx} (here : db.slots t = .active tx) (returned : tx.returned = true) :
      Moves db (.commit t) { db.setSlot t (.committed tx) with table := db.table.commit t }
  | abort {t tx} (here : db.slots t = .active tx) : Moves db (.abort t) (abort db t tx)

theorem during_ok {db db' : Database} {t : TxId} {body : Transaction → Option Database}
    (h : db.during t body = some db') : ∃ tx, db.slots t = .active tx ∧ body tx = some db' := by
  unfold Database.during at h
  split at h
  · rename_i tx here
    exact ⟨tx, here, h⟩
  · cases h

theorem visit_moves {db db' : Database} {t : TxId} {tx : Transaction} {id : UUID}
    (here : db.slots t = .active tx) (h : visit db t tx id = some db') : Moves db (.visit t id) db' := by
  unfold visit at h
  split at h
  · rename_i settlement todo settles phase
    split at h
    · rename_i member
      split at h
      · rename_i outcome
        obtain ⟨free, matched⟩ := Table.visit_taken.mp outcome
        obtain rfl := Option.some.inj h
        exact .take here settles phase member free matched
      · rename_i holder outcome
        obtain rfl := Option.some.inj h
        exact .skip here settles phase member (Table.visit_skipped.mp outcome)
      · rename_i outcome
        obtain ⟨free, unmatched⟩ := Table.visit_dropped.mp outcome
        obtain rfl := Option.some.inj h
        exact .drop here settles phase member free unmatched
    · cases h
  · cases h

theorem insert_moves {db db' : Database} {t : TxId} {tx : Transaction} {id : UUID}
    (here : db.slots t = .active tx) (h : insert db t tx id = some db') : Moves db (.insert t id) db' := by
  unfold insert at h
  split at h
  · rename_i eventId amount places phase
    split at h
    · cases h
    · rename_i bet row
      obtain ⟨table, inserted, rfl⟩ := Option.map_eq_some_iff.mp h
      obtain ⟨fresh, free, rfl⟩ := Table.insert_ok inserted
      exact .insert here places phase row fresh free
  · cases h

theorem update_moves {db db' : Database} {t : TxId} {tx : Transaction}
    (here : db.slots t = .active tx) (h : update db t tx = some db') : Moves db (.update t) db' := by
  unfold update at h
  split at h
  · rename_i settlement settles phase
    split at h
    · cases h
    · rename_i present
      obtain ⟨table, written, rfl⟩ := Option.map_eq_some_iff.mp h
      exact .update here settles phase (by simpa using present) written
  · cases h

theorem step_moves {db db' : Database} {action : Action} (h : step db action = some db') :
    Moves db action db' := by
  cases action with
  | begin t call clock now =>
    simp only [step] at h
    split at h
    · rename_i unused
      obtain rfl := Option.some.inj h
      exact .begin unused
    · cases h
  | select t =>
    obtain ⟨tx, here, h⟩ := during_ok h
    unfold select at h
    split at h
    · rename_i settlement settles phase
      obtain rfl := Option.some.inj h
      exact .select here settles phase
    · cases h
  | visit t id =>
    obtain ⟨tx, here, h⟩ := during_ok h
    exact visit_moves here h
  | fetch t clock =>
    obtain ⟨tx, here, h⟩ := during_ok h
    unfold fetch at h
    split at h
    · rename_i phase
      obtain rfl := Option.some.inj h
      exact .fetch here phase
    · cases h
  | update t =>
    obtain ⟨tx, here, h⟩ := during_ok h
    exact update_moves here h
  | insert t id =>
    obtain ⟨tx, here, h⟩ := during_ok h
    exact insert_moves here h
  | commit t =>
    obtain ⟨tx, here, h⟩ := during_ok h
    unfold commit at h
    split at h
    · rename_i returned
      obtain rfl := Option.some.inj h
      exact .commit here returned
    · cases h
  | abort t =>
    obtain ⟨tx, here, h⟩ := during_ok h
    obtain rfl := Option.some.inj h
    exact .abort here

@[simp] theorem setSlot_slots (db : Database) (t u : TxId) (slot : Slot) :
    (db.setSlot t slot).slots u = if u = t then slot else db.slots u := by
  by_cases same : u = t <;> simp [Database.setSlot, same]

theorem setSlot_tx {db : Database} {t : TxId} {slot : Slot} {tx : Transaction}
    (found : ((db.setSlot t slot).slots t).tx = some tx) : slot.tx = some tx := by
  rwa [setSlot_slots, if_pos rfl] at found

theorem step_other_slot {db db' : Database} {action : Action} {u : TxId} (h : step db action = some db')
    (other : u ≠ action.tx) : db'.slots u = db.slots u := by
  cases step_moves h <;> simp_all [abort, Action.tx]

theorem run_other_slot {db db' : Database} {actions : List Action} {u : TxId}
    (h : run step db actions = some db') (others : ∀ action ∈ actions, u ≠ action.tx) :
    db'.slots u = db.slots u := by
  have keep : ∀ before action after, u ≠ action.tx → before.slots u = db.slots u →
      step before action = some after → after.slots u = db.slots u := by
    intro before action after other same next
    exact (step_other_slot next other).trans same
  exact run_invariant_of keep others rfl h

end BetSettlement.BetMaker
