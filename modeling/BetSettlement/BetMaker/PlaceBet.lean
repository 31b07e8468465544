import BetSettlement.BetMaker.Amounts
import BetSettlement.BetMaker.Attempt
import BetSettlement.BetMaker.Facades

/-!
# Placing a bet

`place_bet` looks the event up and checks the snapshot before it opens its transaction. The route
answers 201, 422 or 503, and 500 for what it does not catch.
-/

namespace BetSettlement.BetMaker
open Python Machine

/-- What an INSERT adds: how its flush ends, and the key that `uuid4` draws. -/
structure InsertServer extends Server where
  insertFault : TxId → Option Exc
  uuid : TxId → UUID

/-- `checkBettable` raises the last two. -/
def PlaceBetError.exn : PlaceBetError → Exn
  | .lineProviderUnavailable => .lineProviderUnavailable ""
  | .eventNotBettable reason => .eventNotBettable reason
  | .typeError => .typeError

/-- The block of the transaction. An amount that the column cannot hold is an error of the server's. -/
def insertBet (server : InsertServer) (t : TxId) (eventId : UUID) (amount : Decimal) : Coroutine BetRead := do
  match quantizeAmount amount with
  | none => throw (.other "InvalidOperation")
  | some _ =>
    match server.insertFault t with
    | some exc => throw exc
    | none =>
      match Bet.create (server.uuid t) eventId amount (server.now t) with
      | none => throw (.dbapi .other false)
      | some bet =>
        if ((← get).db.table.read t bet.id).isSome then throw (.dbapi .integrity false)
        perform [.insert t bet.id]
        return BetRead.modelValidate bet

/-- `now` is Python's clock after the lookup. -/
def placeBet (server : InsertServer) (now : Instant) (eventId : UUID) (amount : Decimal)
    (getEvent : UUID → EStateM Exn World (Option EventSnapshot)) : EStateM Exn World BetRead := do
  let snapshot ← getEvent eventId
  match checkBettable now snapshot with
  | .error error => throw error.exn
  | .ok () =>
    EStateM.adaptExcept .database
      (asyncWith (PostgresUnitOfWork.aenter server.toServer (.placeBet eventId amount))
        (PostgresUnitOfWork.aexit server.toServer) do
          let t ← PostgresUnitOfWork.getSession
          insertBet server t eventId amount)

/-- The status that `POST /bet` answers with. -/
def postBetStatus : EStateM.Result Exn World BetRead → Nat
  | .ok _ _ => 201
  | .error (.lineProviderUnavailable _) _ => 503
  | .error (.eventNotBettable _) _ => 422
  | .error _ _ => 500

/-! ### The checks -/

def Bettable (now : Instant) (snapshot : Option EventSnapshot) : Prop :=
  ∃ found deadline, snapshot = some found ∧ found.deadline = .aware deadline ∧ now < deadline ∧ found.state = .new

/-- The deadline can be compared with the clock. -/
def Comparable (snapshot : Option EventSnapshot) : Prop :=
  ∀ found, snapshot = some found → ∃ deadline, found.deadline = .aware deadline

theorem checkBettable_ok {now : Instant} {snapshot : Option EventSnapshot} :
    checkBettable now snapshot = .ok () ↔ Bettable now snapshot := by
  unfold checkBettable Bettable
  cases snapshot with
  | none => simp
  | some found =>
    cases comparable : found.deadline with
    | naive reading => simp [comparable]
    | aware deadline =>
      by_cases passed : deadline ≤ now
      · simp [comparable, passed]
      · by_cases active : found.state = .new <;> simp [comparable, passed, active, not_le.mp passed]

/-- What the checks refuse is EventNotBettable, unless Python cannot compare the deadline. -/
theorem checkBettable_refuses {now : Instant} {snapshot : Option EventSnapshot} (refused : ¬ Bettable now snapshot) :
    (∃ reason, checkBettable now snapshot = .error (.eventNotBettable reason)) ∧ Comparable snapshot ∨
      checkBettable now snapshot = .error .typeError ∧ ¬ Comparable snapshot := by
  unfold checkBettable Comparable
  cases snapshot with
  | none => exact Or.inl ⟨⟨_, rfl⟩, by simp⟩
  | some found =>
    cases comparable : found.deadline with
    | naive reading => simp [comparable]
    | aware deadline =>
      refine Or.inl ⟨?_, by simp [comparable]⟩
      by_cases passed : deadline ≤ now
      · exact ⟨"deadline passed", by simp [comparable, passed]⟩
      · have finished : found.state ≠ .new :=
          fun active => refused ⟨found, deadline, rfl, comparable, not_le.mp passed, active⟩
        exact ⟨"event not active", by simp [comparable, passed, finished]⟩

theorem bettable_comparable {now : Instant} {snapshot : Option EventSnapshot} (bettable : Bettable now snapshot) :
    Comparable snapshot := by
  obtain ⟨found, deadline, rfl, aware, -⟩ := bettable
  intro other same
  obtain rfl := Option.some.inj same
  exact ⟨deadline, aware⟩

/-! ### The transaction -/

/-- The database takes what the next transaction sends. Other transactions may be open. -/
structure InsertServer.Serves (server : InsertServer) (w : World) : Prop where
  inv : Inv w.db
  unused : w.db.slots w.opened = .unused
  commits : server.fault w.opened .commit = none
  inserts : server.insertFault w.opened = none
  fresh : w.db.table.rows.lookup (server.uuid w.opened) = none
  free : w.db.table.holder (server.uuid w.opened) = none

/-- One bet more is committed, PENDING on the event. -/
structure Placed (start : World) (eventId : UUID) (bet : Bet) (w : World) : Prop where
  event : bet.eventId = eventId
  pending : bet.status = .pending
  fresh : start.db.table.rows.lookup bet.id = none
  rows : ∀ id, w.db.table.rows.lookup id = if id = bet.id then some bet else start.db.table.rows.lookup id
  committed : ∃ tx, w.db.slots start.opened = .committed tx

theorem insert_run {db : Database} {t : TxId} {tx : Transaction} {eventId : UUID} {amount : Decimal} {bet : Bet}
    (here : db.slots t = .active tx) (call : tx.call = .placeBet eventId amount)
    (phase : tx.phase = .opened) (built : Bet.create bet.id eventId amount tx.now = some bet)
    (unread : db.table.read t bet.id = none) (free : db.table.holder bet.id = none) :
    ∃ db', run step db [.insert t bet.id] = some db' ∧ db'.table.rows = db.table.rows ∧
      db'.slots t = .active { tx with phase := .inserted bet } := by
  have unblocked : db.table.blocker t bet.id = none := by simp [Table.blocker, free]
  have written : db.table.insert t bet.id bet = some (db.table.put t bet.id bet) := by
    simp [Table.insert, unread, unblocked]
  have next : step db (.insert t bet.id) = some { db.setSlot t (.active { tx with phase := .inserted bet }) with
      table := db.table.put t bet.id bet } := by
    simp [step, Database.during, here, insert, call, phase, built, written]
  exact ⟨_, run_cons.mpr ⟨_, next, run_nil.mpr rfl⟩, rfl, by simp⟩

/-- The world while the next transaction of `w` is open. -/
def World.inside (w : World) (db : Database) : World :=
  { w with db, opened := w.opened + 1, uow := ⟨some w.opened, some w.opened⟩ }

def World.after (w : World) (db : Database) : World := { w with db, opened := w.opened + 1, uow := {} }

section
variable {server : InsertServer} {w : World} {eventId : UUID} {amount : Decimal} {db db' : Database}

theorem aenter_begins (serves : server.Serves w) (call : Call) :
    ∃ db tx, PostgresUnitOfWork.aenter server.toServer call w = .ok () (w.inside db) ∧ Inv db ∧
      db.table = w.db.table ∧ db.slots w.opened = .active tx ∧ tx.call = call ∧ tx.now = server.now w.opened ∧
      tx.phase = .opened := by
  obtain ⟨db, begins, table, here⟩ := begin_run serves.unused call (server.clock w.opened) (server.now w.opened)
  refine ⟨db, _, ?_, run_inv serves.inv begins, table, here, rfl, rfl, rfl⟩
  unfold PostgresUnitOfWork.aenter
  refine (bind_of_ok (get_eq w)).trans ?_
  refine (bind_of_ok (modify_eq _ _)).trans ?_
  exact (bind_of_ok (@perform_ok { w with opened := w.opened + 1, uow.cm := some w.opened } db _ begins)).trans rfl

theorem aexit_commits (unfaulted : server.fault w.opened .commit = none)
    (commits : run step db [.commit w.opened] = some db') :
    PostgresUnitOfWork.aexit server.toServer none (w.inside db) = .ok () (w.after db') := by
  have exits : sessionExit server.toServer w.opened none (w.inside db) = .ok () (w.inside db') := by
    simp only [sessionExit, unfaulted]
    exact perform_ok commits
  unfold PostgresUnitOfWork.aexit
  refine (bind_of_ok (get_eq _)).trans ?_
  exact (bind_of_ok exits).trans rfl

theorem aexit_aborts (server : Server) {exc : Exc} (aborts : run step db [.abort w.opened] = some db') :
    PostgresUnitOfWork.aexit server (some exc) (w.inside db) = .ok () (w.after db') := by
  have exits : sessionExit server w.opened (some exc) (w.inside db) = .ok () (w.inside db') :=
    perform_ok aborts
  unfold PostgresUnitOfWork.aexit
  refine (bind_of_ok (get_eq _)).trans ?_
  exact (bind_of_ok exits).trans rfl

theorem insertBet_inserts (serves : server.Serves w) {tx : Transaction} {bet : Bet} (inv : Inv db)
    (table : db.table = w.db.table) (here : db.slots w.opened = .active tx) (call : tx.call = .placeBet eventId amount)
    (now : tx.now = server.now w.opened) (phase : tx.phase = .opened)
    (built : Bet.create (server.uuid w.opened) eventId amount (server.now w.opened) = some bet) :
    ∃ db' tx', insertBet server w.opened eventId amount (w.inside db) =
        .ok (BetRead.modelValidate bet) (w.inside db') ∧
      Inv db' ∧ db'.table.rows = w.db.table.rows ∧ db'.slots w.opened = .active tx' ∧ tx'.phase = .inserted bet := by
  have key : bet.id = server.uuid w.opened := (Bet.create_ok built).1
  have quantized : ∃ cents, quantizeAmount amount = some cents := by
    cases rounds : quantizeAmount amount with
    | none => simp [Bet.create, rounds] at built
    | some cents => exact ⟨cents, rfl⟩
  obtain ⟨cents, rounds⟩ := quantized
  have unread : db.table.read w.opened bet.id = none := by
    rw [(inv.owns _ _ here).read (version_none (by simp [phase]) (by simp [phase]) _), table, key]
    exact serves.fresh
  have free : db.table.holder bet.id = none := by
    rw [table, key]
    exact serves.free
  obtain ⟨db', inserts, rows, after⟩ := insert_run here call phase (by rw [key, now]; exact built) unread free
  refine ⟨db', _, ?_, run_inv inv inserts, rows.trans (congrArg Table.rows table), after, rfl⟩
  unfold insertBet
  simp only [rounds, serves.inserts, built]
  refine (bind_of_ok (get_eq _)).trans ?_
  simp only [show (w.inside db).db.table.read w.opened bet.id = none from unread, Option.isSome_none,
    Bool.false_eq_true, if_false]
  exact (bind_of_ok (@perform_ok (w.inside db) db' _ inserts)).trans rfl

theorem getSession_inside :
    (PostgresUnitOfWork.getSession >>= fun t => insertBet server t eventId amount) (w.inside db) =
      insertBet server w.opened eventId amount (w.inside db) :=
  bind_of_ok (show PostgresUnitOfWork.getSession (w.inside db) = .ok w.opened (w.inside db) from rfl)

theorem insertBet_overflows (serves : server.Serves w) {cents : Decimal} (rounds : quantizeAmount amount = some cents)
    (refused : Bet.create (server.uuid w.opened) eventId amount (server.now w.opened) = none) :
    insertBet server w.opened eventId amount (w.inside db) = .error (.dbapi .other false) (w.inside db) := by
  unfold insertBet
  simp only [rounds, serves.inserts, refused]
  rfl

/-- The two ways that a call is meant to end: with one bet more, or with everything as it was. -/
inductive Decides (now : Instant) (snapshot : Option EventSnapshot) (start : World) (eventId : UUID) :
    EStateM.Result Exn World BetRead → Prop where
  | placed {bet : Bet} {w : World} (bettable : Bettable now snapshot) (placed : Placed start eventId bet w) :
      Decides now snapshot start eventId (.ok (BetRead.modelValidate bet) w)
  | refused {reason : String} (refused : ¬ Bettable now snapshot) :
      Decides now snapshot start eventId (.error (.eventNotBettable reason) start)

variable {now : Instant} {snapshot : Option EventSnapshot}

theorem placeBet_refuses (server : InsertServer) (w : World) (eventId : UUID) (amount : Decimal)
    (refused : ¬ Bettable now snapshot) :
    (∃ reason, placeBet server now eventId amount (fun _ => pure snapshot) w = .error (.eventNotBettable reason) w) ∧
        Comparable snapshot ∨
      placeBet server now eventId amount (fun _ => pure snapshot) w = .error .typeError w ∧ ¬ Comparable snapshot := by
  have raises : ∀ error, checkBettable now snapshot = .error error →
      placeBet server now eventId amount (fun _ => pure snapshot) w = .error error.exn w := by
    intro error checked
    unfold placeBet
    refine (bind_of_ok (show (pure snapshot : EStateM Exn World _) w = .ok snapshot w from rfl)).trans ?_
    simp only [checked]
    rfl
  rcases checkBettable_refuses refused with ⟨⟨reason, checked⟩, comparable⟩ | ⟨checked, naive⟩
  · exact Or.inl ⟨⟨reason, raises _ checked⟩, comparable⟩
  · exact Or.inr ⟨raises _ checked, naive⟩

/-- A call that passes the checks ends as its transaction does. -/
theorem placeBet_enters (bettable : Bettable now snapshot) :
    placeBet server now eventId amount (fun _ => pure snapshot) w =
      EStateM.adaptExcept .database
        (asyncWith (PostgresUnitOfWork.aenter server.toServer (.placeBet eventId amount))
          (PostgresUnitOfWork.aexit server.toServer)
          (PostgresUnitOfWork.getSession >>= fun t => insertBet server t eventId amount)) w := by
  unfold placeBet
  refine (bind_of_ok (show (pure snapshot : EStateM Exn World _) w = .ok snapshot w from rfl)).trans ?_
  simp only [checkBettable_ok.mpr bettable]

theorem placeBet_places (serves : server.Serves w) (bettable : Bettable now snapshot) {bet : Bet}
    (built : Bet.create (server.uuid w.opened) eventId amount (server.now w.opened) = some bet) :
    ∃ w', placeBet server now eventId amount (fun _ => pure snapshot) w = .ok (BetRead.modelValidate bet) w' ∧
      Placed w eventId bet w' := by
  obtain ⟨key, event, pending, -⟩ := Bet.create_ok built
  obtain ⟨db, tx, enters, inv, table, here, call, same, phase⟩ := aenter_begins serves (.placeBet eventId amount)
  obtain ⟨db', tx', inserts, inv', rows, here', inserted⟩ :=
    insertBet_inserts serves inv table here call same phase built
  have done : tx'.returned = true := by simp [Transaction.returned, inserted]
  obtain ⟨db'', commits, committed, after⟩ := commit_run inv' here' done
  have ends := asyncWith_ok.mpr ⟨_, _, enters, getSession_inside.trans inserts, aexit_commits serves.commits commits⟩
  refine ⟨w.after db'', ?_, event, pending, key ▸ serves.fresh, fun id => ?_, _, committed⟩
  · rw [placeBet_enters bettable]
    simp only [EStateM.adaptExcept, ends]
  · change db''.table.rows.lookup id = _
    rw [after, rows]
    by_cases own : id = bet.id <;> simp [Transaction.version, inserted, own]

/-- The column is checked by the server, once the transaction is open. -/
theorem placeBet_overflows (serves : server.Serves w) (bettable : Bettable now snapshot) {cents : Decimal}
    (rounds : quantizeAmount amount = some cents)
    (refused : Bet.create (server.uuid w.opened) eventId amount (server.now w.opened) = none) :
    ∃ w', placeBet server now eventId amount (fun _ => pure snapshot) w = .error (.database (.dbapi .other false)) w' ∧
      w'.db.table.rows = w.db.table.rows := by
  obtain ⟨db, tx, enters, inv, table, here, -⟩ := aenter_begins serves (.placeBet eventId amount)
  obtain ⟨db', aborts, -, rows⟩ := abort_run here
  have ends := asyncWith_raises enters (getSession_inside.trans (insertBet_overflows serves rounds refused))
    (aexit_aborts server.toServer aborts)
  refine ⟨w.after db', ?_, rows.trans (congrArg Table.rows table)⟩
  rw [placeBet_enters bettable]
  simp only [EStateM.adaptExcept, ends]

variable [Pydantic]

/-- `place_bet` decides a snapshot exactly when Python can compare its deadline with the clock, and the amount
of a bet that passes the checks fits the column. -/
theorem place_bet_decides_iff (serves : server.Serves w) {value : Decimal} {create : BetCreate}
    (accepted : BetCreate.modelValidate eventId value = some create) (now : Instant) (snapshot : Option EventSnapshot) :
    (Decides now snapshot w eventId (placeBet server now create.eventId create.amount (fun _ => pure snapshot) w) ∧
      (postBetStatus (placeBet server now create.eventId create.amount (fun _ => pure snapshot) w) = 201 ∨
        postBetStatus (placeBet server now create.eventId create.amount (fun _ => pure snapshot) w) = 422)) ↔
      Comparable snapshot ∧ (Bettable now snapshot → value.toRat < 9999999999.995) := by
  obtain ⟨amount, field, rfl⟩ := Option.map_eq_some_iff.mp accepted
  rw [← fitsNumeric_iff field]
  have built := create_accepted field (server.uuid w.opened) eventId (server.now w.opened)
  change (Decides now snapshot w eventId (placeBet server now eventId amount (fun _ => pure snapshot) w) ∧
    (postBetStatus (placeBet server now eventId amount (fun _ => pure snapshot) w) = 201 ∨
      postBetStatus (placeBet server now eventId amount (fun _ => pure snapshot) w) = 422)) ↔ _
  by_cases bettable : Bettable now snapshot
  · by_cases fits : fitsNumeric amount = true
    · rw [if_pos fits] at built
      obtain ⟨w', places, placed⟩ := placeBet_places serves bettable built
      rw [places]
      exact iff_of_true ⟨.placed bettable placed, Or.inl rfl⟩ ⟨bettable_comparable bettable, fun _ => fits⟩
    · rw [if_neg fits] at built
      obtain ⟨w', overflows, -⟩ := placeBet_overflows serves bettable (quantizeAmount_again field) built
      rw [overflows]
      refine iff_of_false ?_ fun both => fits (both.2 bettable)
      rintro ⟨decides, -⟩
      cases decides
  · rcases placeBet_refuses server w eventId amount bettable with ⟨⟨reason, refuses⟩, comparable⟩ | ⟨raises, naive⟩
    · rw [refuses]
      exact iff_of_true ⟨.refused bettable, Or.inr rfl⟩ ⟨comparable, fun passed => absurd passed bettable⟩
    · rw [raises]
      refine iff_of_false ?_ fun both => naive both.1
      rintro ⟨decides, -⟩
      cases decides

end

/-- No statement fails, and the keys are new. -/
def healthy : InsertServer where
  fault _ _ := none
  now t := 10 + t
  clock t := 10 + t
  insertFault _ := none
  uuid t := BitVec.ofNat 128 (100 + t)

theorem healthy_serves : healthy.Serves { db := .start ∅ } where
  inv := start_inv ∅
  unused := rfl
  commits := rfl
  inserts := rfl
  fresh := rfl
  free := rfl

def naiveSeven : EventSnapshot := ⟨7, .naive 1893456000000000, .new⟩

/-- A deadline without an offset decodes, and `place_bet` raises TypeError on it: the answer is a 500. -/
theorem naive_deadline_escapes :
    (¬ ∀ (server : InsertServer) (w : World), server.Serves w → ∀ eventId value create,
      BetCreate.modelValidate eventId value = some create → ∀ now snapshot, Decides now snapshot w eventId
        (placeBet server now create.eventId create.amount (fun _ => pure snapshot) w)) ∧
    HttpEventLookup.getEvent 3 (fun _ => .response ⟨200, .json (eventSeven "2030-01-01T00:00:00" "NEW")⟩) 0 =
      .ok (some naiveSeven) 1 ∧
    placeBet healthy 0 7 ⟨false, 1000, -2⟩ (fun _ => pure (some naiveSeven)) { db := .start ∅ } =
      .error .typeError { db := .start ∅ } ∧
    postBetStatus (placeBet healthy 0 7 ⟨false, 1000, -2⟩ (fun _ => pure (some naiveSeven)) { db := .start ∅ }) =
      500 := by
  have raises : placeBet healthy 0 7 ⟨false, 1000, -2⟩ (fun _ => pure (some naiveSeven)) { db := .start ∅ } =
    .error .typeError { db := .start ∅ } := rfl
  refine ⟨?_, rfl, raises, rfl⟩
  intro decided
  have accepted : BetCreate.modelValidate 7 ⟨false, 10, 0⟩ = some ⟨7, ⟨false, 1000, -2⟩⟩ := by decide
  have decides := decided healthy _ healthy_serves 7 ⟨false, 10, 0⟩ _ accepted 0 (some naiveSeven)
  change Decides _ _ _ _ (placeBet healthy 0 7 ⟨false, 1000, -2⟩ (fun _ => pure (some naiveSeven)) _) at decides
  rw [raises] at decides
  cases decides

theorem place_bet_decides_iff_awareSeven :
    Decides 0 (some ⟨7, .aware 90, .new⟩) { db := .start ∅ } 7
      (placeBet healthy 0 7 ⟨false, 1000, -2⟩ (fun _ => pure (some ⟨7, .aware 90, .new⟩)) { db := .start ∅ }) := by
  have accepted : BetCreate.modelValidate 7 ⟨false, 10, 0⟩ = some ⟨7, ⟨false, 1000, -2⟩⟩ := by decide
  have small : (⟨false, 10, 0⟩ : Decimal).toRat < 9999999999.995 := by norm_num [Decimal.toRat]
  have comparable : Comparable (some ⟨7, .aware 90, .new⟩) := fun found same => ⟨90, by simp [← Option.some.inj same]⟩
  exact ((place_bet_decides_iff healthy_serves accepted 0 (some ⟨7, .aware 90, .new⟩)).mpr
    ⟨comparable, fun _ => small⟩).1

end BetSettlement.BetMaker
