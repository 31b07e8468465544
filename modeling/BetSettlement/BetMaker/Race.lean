import BetSettlement.BetMaker.Settlement

/-!
# Two settlements of one event

`cancel_bets_for_event` promises that one of two concurrent calls gets every row. Each row goes to
whichever transaction visits it first, so the promise holds when one of the two is first everywhere.
-/

namespace BetSettlement.BetMaker
open Python Machine

def Action.visitor (id : UUID) : Action → Option TxId
  | .visit t key => if key = id then some t else none
  | _ => none

def firstVisitor (actions : List Action) (id : UUID) : Option TxId := actions.findSome? (Action.visitor id)

def Transaction.Left (tx : Transaction) (id : UUID) : Prop := ∃ todo, tx.phase = .selecting todo ∧ id ∈ todo

/-- What one step adds to a transaction. -/
structure Adds (db : Database) (action : Action) (db' : Database) (t : TxId) (tx tx' : Transaction) : Prop where
  before : (db.slots t).tx = some tx
  taken : ∀ id ∈ tx'.taken, id ∈ tx.taken ∨ action = .visit t id
  snapshot : ∀ id ∈ tx'.snapshot, id ∈ tx.snapshot ∨ ¬ db'.Decided id
  visited : ∀ id ∈ tx'.snapshot, tx'.Left id ∨ action = .visit t id ∨ (id ∈ tx.snapshot ∧ ¬ tx.Left id)

theorem adds_same {db db' : Database} {action : Action} {t : TxId} {tx : Transaction}
    (before : (db.slots t).tx = some tx) : Adds db action db' t tx tx where
  before := before
  taken _ := Or.inl
  snapshot _ := Or.inl
  visited id member := by
    by_cases left : tx.Left id
    · exact Or.inl left
    · exact Or.inr (Or.inr ⟨member, left⟩)

theorem visit_adds {db db' : Database} {t : TxId} {tx tx' : Transaction} {todo : List UUID} {id : UUID}
    (here : db.slots t = .active tx) (phase : tx.phase = .selecting todo)
    (phase' : tx'.phase = .selecting (todo.erase id)) (snapshot : tx'.snapshot = tx.snapshot)
    (taken : ∀ key ∈ tx'.taken, key ∈ tx.taken ∨ key = id) : Adds db (.visit t id) db' t tx tx' where
  before := congrArg Slot.tx here
  taken key member := by
    rcases taken key member with before | rfl
    · exact Or.inl before
    · exact Or.inr rfl
  snapshot key member := Or.inl (snapshot ▸ member)
  visited key member := by
    by_cases same : key = id
    · exact Or.inr (Or.inl (congrArg _ same.symm))
    · by_cases left : key ∈ todo
      · exact Or.inl ⟨_, phase', (List.mem_erase_of_ne same).mpr left⟩
      · refine Or.inr (Or.inr ⟨snapshot ▸ member, ?_⟩)
        rintro ⟨rest, selecting, there⟩
        obtain rfl := Phase.selecting.inj (phase.symm.trans selecting)
        exact left there

theorem phase_adds {db db' : Database} {action : Action} {t : TxId} {tx tx' : Transaction}
    (here : db.slots t = .active tx) (taken : tx'.taken = tx.taken) (snapshot : tx'.snapshot = tx.snapshot)
    (visited : ∀ id, ¬ tx.Left id) : Adds db action db' t tx tx' where
  before := congrArg Slot.tx here
  taken _ member := Or.inl (taken ▸ member)
  snapshot _ member := Or.inl (snapshot ▸ member)
  visited id member := Or.inr (Or.inr ⟨snapshot ▸ member, visited id⟩)

theorem select_adds {db : Database} {t : TxId} {tx : Transaction} {settlement : Settlement} {slot : Slot}
    (own : Owns db.table t tx) (here : db.slots t = .active tx) (phase : tx.phase = .opened) :
    Adds db (.select t) (db.setSlot t slot) t tx
      (tx.selected (db.table.select t (getPendingLocked settlement.eventId))) where
  before := congrArg Slot.tx here
  taken _ := Or.inl
  snapshot id member := by
    refine Or.inr ?_
    rintro ⟨row, found, decided⟩
    obtain ⟨bet, committed, -, pending⟩ := (own.mem_select phase).mp member
    obtain rfl := Option.some.inj (found.symm.trans committed)
    exact decided pending
  visited id member := Or.inl ⟨_, rfl, member⟩

theorem step_adds {db db' : Database} {action : Action} (inv : Inv db) (h : step db action = some db') {t : TxId}
    {tx' : Transaction} (found : (db'.slots t).tx = some tx') :
    (tx'.snapshot = [] ∧ tx'.taken = []) ∨ ∃ tx, Adds db action db' t tx tx' := by
  by_cases other : t = action.tx
  · subst other
    cases step_moves h with
    | begin unused =>
      obtain rfl := Option.some.inj (setSlot_tx found)
      exact Or.inl ⟨rfl, rfl⟩
    | select here settles phase =>
      obtain rfl := Option.some.inj (setSlot_tx found)
      exact Or.inr ⟨_, select_adds (inv.owns _ _ here) here phase⟩
    | take here settles phase member free matched =>
      obtain rfl := Option.some.inj (setSlot_tx found)
      exact Or.inr ⟨_, visit_adds here phase rfl rfl fun key taken => by simpa [Transaction.take] using taken⟩
    | skip here settles phase member held | drop here settles phase member free unmatched =>
      obtain rfl := Option.some.inj (setSlot_tx found)
      exact Or.inr ⟨_, visit_adds here phase rfl rfl fun _ => Or.inl⟩
    | fetch here phase =>
      obtain rfl := Option.some.inj (setSlot_tx found)
      exact Or.inr ⟨_, phase_adds here (fetched_taken _ _) (fetched_snapshot _ _) (by simp [Transaction.Left, phase])⟩
    | update here settles phase some_taken written | insert here places phase row fresh free =>
      obtain rfl := Option.some.inj (setSlot_tx found)
      exact Or.inr ⟨_, phase_adds here rfl rfl (by simp [Transaction.Left, phase])⟩
    | commit here | abort here =>
      obtain rfl := Option.some.inj (setSlot_tx found)
      exact Or.inr ⟨_, adds_same (congrArg Slot.tx here)⟩
  · exact Or.inr ⟨tx', adds_same (step_other_slot h other ▸ found)⟩

/-- The visits so far, and what came of the first one to each row. -/
structure Visits (front : List Action) (db : Database) : Prop where
  taken : ∀ t tx, (db.slots t).tx = some tx → ∀ id ∈ tx.taken, Action.visit t id ∈ front
  visited : ∀ t tx, (db.slots t).tx = some tx → ∀ id ∈ tx.snapshot, tx.Left id ∨ Action.visit t id ∈ front
  listed : ∀ t id, Action.visit t id ∈ front → ∃ tx, (db.slots t).tx = some tx ∧ id ∈ tx.snapshot
  first : ∀ id u, firstVisitor front id = some u → ∃ ux, (db.slots u).tx = some ux ∧ id ∈ ux.taken
  untouched : ∀ id, firstVisitor front id = none → ∀ t tx, (db.slots t).tx = some tx → id ∈ tx.snapshot →
    ¬ db.Decided id

theorem start_visits (rows : AList fun _ : UUID => Bet) : Visits [] (Database.start rows) where
  taken t tx found := by cases found
  visited t tx found := by cases found
  listed t id member := by cases member
  first id u found := by cases found
  untouched id none_first t tx found := by cases found

theorem firstVisitor_none {front : List Action} {id : UUID} :
    firstVisitor front id = none ↔ ∀ t, Action.visit t id ∉ front := by
  rw [firstVisitor, List.findSome?_eq_none_iff]
  constructor
  · intro none_first t member
    have visits := none_first _ member
    simp [Action.visitor] at visits
  · intro unvisited action member
    cases action with
    | visit t key =>
      have different : key ≠ id := fun same => unvisited t (same ▸ member)
      simp [Action.visitor, different]
    | _ => rfl

/-- The first visitor finds the row free and still PENDING. -/
theorem first_takes {db db' : Database} {front : List Action} {t : TxId} {id : UUID} (inv : Inv db)
    (accounts : Accounts db) (visits : Visits front db) (h : step db (.visit t id) = some db')
    (alone : firstVisitor front id = none) : ∃ tx, (db'.slots t).tx = some tx ∧ id ∈ tx.taken := by
  have unvisited := firstVisitor_none.mp alone
  cases step_moves h with
  | take here settles phase member free matched =>
    simp only [setSlot_slots, if_true, Slot.tx]
    exact ⟨_, rfl, List.mem_append_right _ (List.mem_singleton_self _)⟩
  | skip here settles phase member held =>
    have scanned := accounts.scanned _ _ (congrArg Slot.tx here)
    obtain ⟨bet, -, row, -⟩ := scanned.row _ (scanned.todo _ phase _ member)
    obtain ⟨-, ux, active, taken⟩ := holder_taken inv held row
    exact absurd (visits.taken _ ux (congrArg Slot.tx active) _ taken) (unvisited _)
  | drop here settles phase member free unmatched =>
    have scanned := accounts.scanned _ _ (congrArg Slot.tx here)
    have listed := scanned.todo _ phase _ member
    obtain ⟨bet, settlement, row, settles', event⟩ := scanned.row _ listed
    obtain rfl := Option.some.inj (settles.symm.trans settles')
    have read := (inv.owns _ _ here).read_selecting phase id
    have refused := unmatched bet (read.trans row)
    have pending : bet.status = .pending := by
      by_contra decided
      exact visits.untouched id alone _ _ (congrArg Slot.tx here) listed ⟨bet, row, decided⟩
    rw [getPendingLocked_iff.mpr ⟨event, pending⟩] at refused
    cases refused

/-- Who visits a row has it in its snapshot. -/
theorem listed_step {db db' : Database} {front : List Action} {action : Action} (inv : Inv db)
    (accounts : Accounts db) (visits : Visits front db) (h : step db action = some db') {t : TxId} {id : UUID}
    (member : Action.visit t id ∈ front ++ [action]) : ∃ tx, (db'.slots t).tx = some tx ∧ id ∈ tx.snapshot := by
  have listed : ∃ tx, (db.slots t).tx = some tx ∧ tx.phase ≠ .opened ∧ id ∈ tx.snapshot := by
    rcases List.mem_append.mp member with before | now
    · obtain ⟨tx, found, listed⟩ := visits.listed t id before
      refine ⟨tx, found, fun opened => ?_, listed⟩
      simp [((accounts.scanned t tx found).opened opened).1] at listed
    · obtain rfl := List.mem_singleton.mp now
      cases step_moves h with
      | take here _ phase queued | skip here _ phase queued | drop here _ phase queued =>
        have found := congrArg Slot.tx here
        exact ⟨_, found, by simp [phase], (accounts.scanned _ _ found).todo _ phase _ queued⟩
  obtain ⟨tx, found, started, listed⟩ := listed
  obtain ⟨tx', found', grows⟩ := ((step_later inv h).slots t).tx found
  exact ⟨tx', found', (grows.snapshot started).2 ▸ listed⟩

/-- The first visitor of a row keeps it. -/
theorem first_step {db db' : Database} {front : List Action} {action : Action} (inv : Inv db)
    (accounts : Accounts db) (visits : Visits front db) (h : step db action = some db') {id : UUID} {u : TxId}
    (first : firstVisitor (front ++ [action]) id = some u) :
    ∃ ux, (db'.slots u).tx = some ux ∧ id ∈ ux.taken := by
  rw [firstVisitor, List.findSome?_append] at first
  cases before : firstVisitor front id with
  | some v =>
    rw [← firstVisitor, before, Option.some_or] at first
    obtain rfl := Option.some.inj first
    obtain ⟨ux, found, taken⟩ := visits.first id v before
    obtain ⟨ux', found', grows⟩ := ((step_later inv h).slots v).tx found
    exact ⟨ux', found', grows.taken id taken⟩
  | none =>
    rw [← firstVisitor, before, Option.none_or] at first
    cases action with
    | visit t key =>
      simp only [List.findSome?_cons, Action.visitor, List.findSome?_nil] at first
      by_cases same : key = id
      · subst same
        rw [if_pos rfl] at first
        obtain rfl := Option.some.inj first
        exact first_takes inv accounts visits h before
      · simp [same] at first
    | _ => simp [Action.visitor] at first

/-- A row that no transaction has visited yet is still PENDING. -/
theorem untouched_step {db db' : Database} {front : List Action} {action : Action} (inv : Inv db)
    (visits : Visits front db) (h : step db action = some db') {id : UUID}
    (alone : firstVisitor (front ++ [action]) id = none) {t : TxId} {tx : Transaction}
    (found : (db'.slots t).tx = some tx) (member : id ∈ tx.snapshot) : ¬ db'.Decided id := by
  have unvisited := firstVisitor_none.mp alone
  have before : firstVisitor front id = none :=
    firstVisitor_none.mpr fun u visited => unvisited u (List.mem_append_left _ visited)
  rintro ⟨bet, row, decided⟩
  cases row_step inv h id with
  | kept same =>
    rcases step_adds inv h found with ⟨none_found, -⟩ | ⟨tx₀, adds⟩
    · simp [none_found] at member
    · rcases adds.snapshot id member with earlier | undecided
      · exact visits.untouched id before t tx₀ adds.before earlier ⟨bet, same.symm.trans row, decided⟩
      · exact undecided ⟨bet, row, decided⟩
  | @settled u ux settlement bet₀ commits here settles taken found₀ event pending after =>
    exact unvisited u (List.mem_append_left _ (visits.taken u ux (congrArg Slot.tx here) id taken))
  | placed commits here phase call create absent after =>
    obtain rfl := Option.some.inj (after.symm.trans row)
    exact decided (Bet.create_ok create).2.2.1

theorem visits_step {db db' : Database} {front : List Action} {action : Action} (inv : Inv db)
    (accounts : Accounts db) (visits : Visits front db) (h : step db action = some db') :
    Visits (front ++ [action]) db' where
  taken t tx found id taken := by
    rcases step_adds inv h found with ⟨-, none_taken⟩ | ⟨before, adds⟩
    · simp [none_taken] at taken
    · rcases adds.taken id taken with earlier | rfl
      · exact List.mem_append_left _ (visits.taken t before adds.before id earlier)
      · exact List.mem_append_right _ (List.mem_singleton_self _)
  visited t tx found id member := by
    rcases step_adds inv h found with ⟨none_found, -⟩ | ⟨before, adds⟩
    · simp [none_found] at member
    · rcases adds.visited id member with left | rfl | ⟨earlier, done⟩
      · exact Or.inl left
      · exact Or.inr (List.mem_append_right _ (List.mem_singleton_self _))
      · rcases visits.visited t before adds.before id earlier with left | visited
        · exact absurd left done
        · exact Or.inr (List.mem_append_left _ visited)
  listed _ _ := listed_step inv accounts visits h
  first _ _ := first_step inv accounts visits h
  untouched _ alone _ _ := untouched_step inv visits h alone

theorem run_visits {rows : AList fun _ : UUID => Bet} {db : Database} {actions : List Action}
    (h : run step (Database.start rows) actions = some db) : Accounts db ∧ Visits actions db := by
  have held := run_history (P := fun front db => Inv db ∧ Accounts db ∧ Visits front db)
    (fun _ _ _ _ held next => ⟨step_inv held.1 next, step_accounts held.1 held.2.1 next,
      visits_step held.1 held.2.1 held.2.2 next⟩) ⟨start_inv rows, start_accounts rows, start_visits rows⟩ h
  exact held.2

/-- The rows that the SELECT of `t` found PENDING. -/
def Database.found (db : Database) (t : TxId) : List UUID :=
  match (db.slots t).tx with
  | some tx => tx.snapshot
  | none => []

def TakesAll (db : Database) (winner loser : TxId) : Prop :=
  (∀ id, id ∈ db.found winner ∨ id ∈ db.found loser → id ∈ db.returnedIds winner) ∧ db.returnedIds loser = []

/-- `winner` is the first to visit every row that `loser` visits. -/
def Leads (actions : List Action) (winner loser : TxId) : Prop :=
  ∀ id, Action.visit loser id ∈ actions → firstVisitor actions id = some winner

/-- `t` has committed a settlement of `eventId`. -/
def Database.Settled (db : Database) (eventId : UUID) (t : TxId) : Prop :=
  ∃ tx settlement, db.slots t = .committed tx ∧ tx.call.settlement = some settlement ∧ tx.call.eventId = eventId

theorem settles_of_visit {db : Database} {front : List Action} (accounts : Accounts db)
    (visits : Visits front db) {t u : TxId} {id eventId : UUID} (settled : db.Settled eventId t)
    (visit : Action.visit t id ∈ front) {ux : Transaction} (found : (db.slots u).tx = some ux)
    (listed : id ∈ ux.snapshot) : ux.call.settlement.isSome = true ∧ ux.call.eventId = eventId := by
  obtain ⟨tx, settlement, here, settles, event⟩ := settled
  obtain ⟨tx', found', listed'⟩ := visits.listed t id visit
  obtain rfl : tx = tx' := Option.some.inj ((congrArg Slot.tx here).symm.trans found')
  obtain ⟨bet, s, row, s_settles, s_event⟩ := (accounts.scanned t tx found').row id listed'
  obtain ⟨bet', s', row', s'_settles, s'_event⟩ := (accounts.scanned u ux found).row id listed
  obtain rfl := Option.some.inj (row.symm.trans row')
  have first := (Call.settlement_decides s_settles).2.1
  have last := (Call.settlement_decides s'_settles).2.1
  exact ⟨by simp [s'_settles], by rw [← last, ← s'_event, s_event, first, event]⟩

theorem takesAll_iff {rows : AList fun _ : UUID => Bet} {db : Database} {actions : List Action}
    {eventId : UUID} {winner loser : TxId} (reached : run step (Database.start rows) actions = some db)
    (different : winner ≠ loser) (won : db.Settled eventId winner) (lost : db.Settled eventId loser)
    (only : ∀ u ux, (db.slots u).tx = some ux → ux.call.settlement.isSome = true →
      ux.call.eventId = eventId → u = winner ∨ u = loser) :
    TakesAll db winner loser ↔ Leads actions winner loser := by
  obtain ⟨accounts, visits⟩ := run_visits reached
  have ⟨wx, _, wHere, _, _⟩ := won
  have ⟨lx, _, lHere, _, _⟩ := lost
  have wFound := congrArg Slot.tx wHere
  have lFound := congrArg Slot.tx lHere
  -- A row that one of the two visits was first visited by one of the two.
  have first : ∀ t id, db.Settled eventId t → Action.visit t id ∈ actions → ∃ u ux,
      firstVisitor actions id = some u ∧ (db.slots u).tx = some ux ∧ id ∈ ux.taken ∧ (u = winner ∨ u = loser) := by
    intro t id settled visit
    cases visitor : firstVisitor actions id with
    | none => exact absurd visit (firstVisitor_none.mp visitor t)
    | some u =>
      obtain ⟨ux, found, taken⟩ := visits.first id u visitor
      obtain ⟨settles, event⟩ := settles_of_visit accounts visits settled visit found
        ((accounts.scanned u ux found).taken id taken)
      exact ⟨u, ux, rfl, found, taken, only u ux found settles event⟩
  have visited : ∀ t tx id, db.slots t = .committed tx → id ∈ tx.snapshot → Action.visit t id ∈ actions := by
    intro t tx id here listed
    rcases visits.visited t tx (congrArg Slot.tx here) id listed with ⟨todo, phase, -⟩ | visit
    · have returned := (accounts.returned t tx here).1
      simp [Transaction.returned, phase] at returned
    · exact visit
  constructor
  · rintro ⟨-, none_left⟩ id visit
    obtain ⟨u, ux, visitor, found, taken, rfl | rfl⟩ := first loser id lost visit
    · exact visitor
    · obtain rfl : lx = ux := Option.some.inj (lFound.symm.trans found)
      have member := (mem_returnedIds accounts).mpr ⟨lx, lHere, taken⟩
      simp [none_left] at member
  · intro leads
    have takes : ∀ id, Action.visit loser id ∈ actions → id ∈ wx.taken := by
      intro id visit
      obtain ⟨ux, found, taken⟩ := visits.first id winner (leads id visit)
      exact Option.some.inj (wFound.symm.trans found) ▸ taken
    constructor
    · rintro id (listed | listed)
      · simp only [Database.found, wFound] at listed
        obtain ⟨u, ux, visitor, found, taken, rfl | rfl⟩ := first winner id won (visited _ _ _ wHere listed)
        · obtain rfl : wx = ux := Option.some.inj (wFound.symm.trans found)
          exact (mem_returnedIds accounts).mpr ⟨wx, wHere, taken⟩
        · exact (mem_returnedIds accounts).mpr ⟨wx, wHere, takes id (visits.taken _ ux found id taken)⟩
      · simp only [Database.found, lFound] at listed
        exact (mem_returnedIds accounts).mpr ⟨wx, wHere, takes id (visited _ _ _ lHere listed)⟩
    · rw [List.eq_nil_iff_forall_not_mem]
      intro id member
      obtain ⟨tx, here, taken⟩ := (mem_returnedIds accounts).mp member
      have visit := visits.taken loser tx (congrArg Slot.tx here) id taken
      have won := (mem_returnedIds accounts).mpr ⟨wx, wHere, takes id visit⟩
      exact returned_disjoint accounts (run_serial (start_inv rows) reached) different won member

/-- One of two settlements of an event obtains every row and the other none exactly when one of them is the
first to visit each row that the other visits. -/
theorem winner_takes_all_iff {rows : AList fun _ : UUID => Bet} {db : Database} {actions : List Action}
    {eventId : UUID} {t u : TxId} (reached : run step (Database.start rows) actions = some db)
    (different : t ≠ u) (first : db.Settled eventId t) (second : db.Settled eventId u)
    (only : ∀ v vx, (db.slots v).tx = some vx → vx.call.settlement.isSome = true →
      vx.call.eventId = eventId → v = t ∨ v = u) :
    (TakesAll db t u ∨ TakesAll db u t) ↔ (Leads actions t u ∨ Leads actions u t) := by
  rw [takesAll_iff reached different first second only,
    takesAll_iff reached different.symm second first fun v vx found settles event =>
      (only v vx found settles event).symm]

/-- Both SELECTs visit bet 100 first, and the cancel reaches bet 101 before the settle does. -/
def splitRace : List Action :=
  [.begin 0 (.placeBet 7 ⟨false, 10, 0⟩) 0 1, .insert 0 100, .commit 0,
   .begin 1 (.placeBet 7 ⟨false, 20, 0⟩) 0 2, .insert 1 101, .commit 1,
   .begin 2 (.settleBetsForEvent 7 .finishedWin .consumer) 0 3, .begin 3 (.cancelBetsForEvent 7) 0 4,
   .select 2, .select 3, .visit 2 100, .visit 3 100, .visit 3 101, .visit 2 101,
   .fetch 2 5, .update 2, .commit 2, .fetch 3 6, .update 3, .commit 3]

/-- Neither call obtains both rows: one bet of the event is WON and the other CANCELLED. -/
theorem bets_of_one_event_split : ∃ db, run step (Database.start ∅) splitRace = some db ∧
    db.Settled 7 2 ∧ db.Settled 7 3 ∧ ¬ (TakesAll db 2 3 ∨ TakesAll db 3 2) ∧
    db.status 100 = some .won ∧ db.status 101 = some .cancelled := by
  obtain ⟨db, reached⟩ := Option.isSome_iff_exists.mp
    (show (run step (Database.start ∅) splitRace).isSome = true by decide)
  have ended : (run step (Database.start ∅) splitRace).map (fun db =>
      (db.returnedIds 2, db.returnedIds 3, db.status 100, db.status 101)) =
      some ([100], [101], some .won, some .cancelled) := by decide
  have slots : (run step (Database.start ∅) splitRace).map (fun db => (db.slots 2, db.slots 3)) =
      some (.committed ⟨.settleBetsForEvent 7 .finishedWin .consumer, 3, 5, .updated, [101, 100], [100], [(101, 3)]⟩,
        .committed ⟨.cancelBetsForEvent 7, 4, 0, .updated, [101, 100], [101], [(100, 2)]⟩) := by decide
  rw [reached] at ended slots
  simp only [Option.map_some, Option.some.injEq, Prod.mk.injEq] at ended slots
  obtain ⟨two, three, won, cancelled⟩ := ended
  refine ⟨db, reached, ⟨_, _, slots.1, rfl, rfl⟩, ⟨_, _, slots.2, rfl, rfl⟩, ?_, won, cancelled⟩
  rintro (⟨-, none_left⟩ | ⟨-, none_left⟩)
  · rw [three] at none_left
    cases none_left
  · rw [two] at none_left
    cases none_left

def oneBet : AList fun _ : UUID => Bet :=
  AList.singleton 100 ⟨100, 7, ⟨false, 1000, -2⟩, .pending, 1, 1, none, none⟩

def twoBets : AList fun _ : UUID => Bet :=
  [⟨100, ⟨100, 7, ⟨false, 1000, -2⟩, .pending, 1, 1, none, none⟩⟩,
   ⟨101, ⟨101, 7, ⟨false, 2000, -2⟩, .pending, 2, 2, none, none⟩⟩].toAList

/-- The settle reaches each bet just before the cancel does, which commits first. -/
def settleFirst : List Action :=
  [.begin 0 (.settleBetsForEvent 7 .finishedWin .consumer) 0 3, .begin 1 (.cancelBetsForEvent 7) 4 4,
   .select 0, .select 1, .visit 0 100, .visit 1 100, .visit 0 101, .visit 1 101, .fetch 0 5, .fetch 1 6,
   .update 0, .commit 1, .commit 0]

theorem winner_takes_all_settleFirst : ∃ db, run step (Database.start twoBets) settleFirst = some db ∧
    Leads settleFirst 0 1 ∧ TakesAll db 0 1 ∧ db.status 100 = some .won ∧ db.status 101 = some .won := by
  obtain ⟨db, reached⟩ := Option.isSome_iff_exists.mp
    (show (run step (Database.start twoBets) settleFirst).isSome = true by decide)
  have slots : (run step (Database.start twoBets) settleFirst).map (fun db => (db.slots 0, db.slots 1)) = some
      (.committed ⟨.settleBetsForEvent 7 .finishedWin .consumer, 3, 5, .updated, [100, 101], [100, 101], []⟩,
        .committed ⟨.cancelBetsForEvent 7, 4, 4, .fetched, [100, 101], [], [(100, 0), (101, 0)]⟩) := by decide
  have ended : (run step (Database.start twoBets) settleFirst).map (fun db =>
      (db.returnedIds 0, db.status 100, db.status 101)) = some ([100, 101], some .won, some .won) := by decide
  rw [reached] at slots ended
  simp only [Option.map_some, Option.some.injEq, Prod.mk.injEq] at slots ended
  have leads : Leads settleFirst 0 1 := by
    intro id visit
    simp only [settleFirst, List.mem_cons, List.not_mem_nil, or_false, reduceCtorEq, false_or, Action.visit.injEq] at visit
    rcases visit with ⟨never, -⟩ | ⟨-, rfl⟩ | ⟨never, -⟩ | ⟨-, rfl⟩
    · cases never
    · rfl
    · cases never
    · rfl
  have only : ∀ v vx, (db.slots v).tx = some vx → vx.call.settlement.isSome = true → vx.call.eventId = 7 →
      v = 0 ∨ v = 1 := by
    intro v vx found _ _
    by_contra neither
    push Not at neither
    have unused := run_other_slot (u := v) reached (by simp [settleFirst, Action.tx, neither])
    rw [unused] at found
    cases found
  have one := (winner_takes_all_iff reached (by decide) ⟨_, _, slots.1, rfl, rfl⟩ ⟨_, _, slots.2, rfl, rfl⟩ only).mpr
    (Or.inl leads)
  refine ⟨db, reached, leads, one.resolve_right ?_, ended.2.1, ended.2.2⟩
  rintro ⟨-, none_left⟩
  rw [ended.1] at none_left
  cases none_left

end BetSettlement.BetMaker
