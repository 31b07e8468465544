import BetSettlement.BetMaker.Progress

/-!
# What a SELECT accounts for

Every row of the snapshot is still to be visited, taken, skipped for another transaction that had
taken it, or no longer PENDING.
-/

namespace BetSettlement.BetMaker
open Python Machine

structure Scanned (db : Database) (t : TxId) (tx : Transaction) : Prop where
  row : ∀ id ∈ tx.snapshot, ∃ bet settlement, db.table.rows.lookup id = some bet ∧
    tx.call.settlement = some settlement ∧ bet.eventId = settlement.eventId
  taken : ∀ id ∈ tx.taken, id ∈ tx.snapshot
  skipped : ∀ id u, (id, u) ∈ tx.skipped → id ∈ tx.snapshot ∧ u ≠ t ∧
    ∃ ux, (db.slots u).tx = some ux ∧ id ∈ ux.taken
  todo : ∀ todo, tx.phase = .selecting todo → ∀ id ∈ todo, id ∈ tx.snapshot
  opened : tx.phase = .opened → tx.snapshot = [] ∧ tx.skipped = []
  accounted : ∀ id ∈ tx.snapshot, (∃ todo, tx.phase = .selecting todo ∧ id ∈ todo) ∨ id ∈ tx.taken ∨
    (∃ u, (id, u) ∈ tx.skipped) ∨ db.Decided id

theorem scanned_later {db db' : Database} {t : TxId} {tx : Transaction} (later : db.Later db')
    (h : Scanned db t tx) : Scanned db' t tx where
  row id member := by
    obtain ⟨bet, settlement, found, settles, event⟩ := h.row id member
    obtain ⟨bet', found', grown⟩ := later.rows id bet found
    exact ⟨bet', settlement, found', settles, grown.eventId.trans event⟩
  taken := h.taken
  skipped id u passed := by
    obtain ⟨member, other, ux, found, held⟩ := h.skipped id u passed
    obtain ⟨ux', found', grows⟩ := (later.slots u).tx found
    exact ⟨member, other, ux', found', grows.taken id held⟩
  todo := h.todo
  opened := h.opened
  accounted id member := by
    rcases h.accounted id member with left | taken | skipped | decided
    · exact Or.inl left
    · exact Or.inr (Or.inl taken)
    · exact Or.inr (Or.inr (Or.inl skipped))
    · exact Or.inr (Or.inr (Or.inr (later.decided decided)))

/-- Only the phase moves on, and not into or out of the SELECT. -/
theorem scanned_phase {db : Database} {t : TxId} {tx tx' : Transaction} (h : Scanned db t tx)
    (call : tx'.call = tx.call) (snapshot : tx'.snapshot = tx.snapshot) (taken : tx'.taken = tx.taken)
    (skipped : tx'.skipped = tx.skipped) (started : tx'.phase ≠ .opened)
    (complete : ∀ todo, tx'.phase ≠ .selecting todo)
    (visited : ∀ todo, tx.phase = .selecting todo → todo = []) : Scanned db t tx' where
  row id member := by
    rw [call]
    exact h.row id (snapshot ▸ member)
  taken id member := snapshot ▸ h.taken id (taken ▸ member)
  skipped id u passed := by
    rw [snapshot]
    exact h.skipped id u (skipped ▸ passed)
  todo todo phase := absurd phase (complete todo)
  opened phase := absurd phase started
  accounted id member := by
    rw [taken, skipped]
    rcases h.accounted id (snapshot ▸ member) with ⟨todo, phase, left⟩ | settled
    · rw [visited todo phase] at left
      cases left
    · exact Or.inr settled

theorem select_scanned {db : Database} {t : TxId} {tx : Transaction} {settlement : Settlement}
    (own : Owns db.table t tx) (settles : tx.call.settlement = some settlement) (phase : tx.phase = .opened)
    (h : Scanned db t tx) :
    Scanned db t (tx.selected (db.table.select t (getPendingLocked settlement.eventId))) where
  row id member := by
    obtain ⟨bet, committed, event, -⟩ := (own.mem_select phase).mp member
    exact ⟨bet, settlement, committed, settles, event⟩
  taken id member := by
    have empty : tx.taken = [] := own.opened phase
    simp [Transaction.selected, empty] at member
  skipped id u passed := by
    have empty : tx.skipped = [] := (h.opened phase).2
    simp [Transaction.selected, empty] at passed
  todo todo selecting := by
    cases selecting
    exact fun _ => id
  opened opened := by cases opened
  accounted id member := Or.inl ⟨_, rfl, member⟩

/-- One row leaves the list for the outcome that it is accounted under. -/
theorem visit_scanned {db : Database} {t : TxId} {tx tx' : Transaction} {todo : List UUID} {id : UUID}
    (h : Scanned db t tx) (phase : tx.phase = .selecting todo) (call : tx'.call = tx.call)
    (snapshot : tx'.snapshot = tx.snapshot) (phase' : tx'.phase = .selecting (todo.erase id))
    (taken : ∀ key ∈ tx'.taken, key ∈ tx.taken ∨ key ∈ tx.snapshot) (kept : ∀ key ∈ tx.taken, key ∈ tx'.taken)
    (skipped : ∀ key u, (key, u) ∈ tx'.skipped → (key, u) ∈ tx.skipped ∨ (key ∈ tx.snapshot ∧ u ≠ t ∧
      ∃ ux, (db.slots u).tx = some ux ∧ key ∈ ux.taken))
    (recorded : ∀ pass ∈ tx.skipped, pass ∈ tx'.skipped)
    (outcome : id ∈ tx'.taken ∨ (∃ u, (id, u) ∈ tx'.skipped) ∨ db.Decided id) : Scanned db t tx' where
  row key member := by
    rw [call]
    exact h.row key (snapshot ▸ member)
  taken key member := by
    rw [snapshot]
    rcases taken key member with before | now
    · exact h.taken key before
    · exact now
  skipped key u passed := by
    rw [snapshot]
    rcases skipped key u passed with before | now
    · exact h.skipped key u before
    · exact now
  todo rest selecting key member := by
    rw [phase'] at selecting
    cases selecting
    exact snapshot ▸ h.todo todo phase key (List.mem_of_mem_erase member)
  opened opened := by
    rw [phase'] at opened
    cases opened
  accounted key member := by
    rcases h.accounted key (snapshot ▸ member) with ⟨rest, selecting, left⟩ | before | ⟨u, before⟩ | decided
    · obtain rfl : todo = rest := Phase.selecting.inj (phase.symm.trans selecting)
      by_cases same : key = id
      · exact Or.inr (same ▸ outcome)
      · exact Or.inl ⟨_, phase', (List.mem_erase_of_ne same).mpr left⟩
    · exact Or.inr (Or.inl (kept key before))
    · exact Or.inr (Or.inr (Or.inl ⟨u, recorded _ before⟩))
    · exact Or.inr (Or.inr (Or.inr decided))

/-- A row that is skipped is one that its holder has taken. -/
theorem holder_taken {db : Database} (inv : Inv db) {t u : TxId} {id : UUID} {bet : Bet}
    (held : db.table.blocker t id = some u) (found : db.table.rows.lookup id = some bet) :
    u ≠ t ∧ ∃ ux, db.slots u = .active ux ∧ id ∈ ux.taken := by
  obtain ⟨holder, other⟩ := Table.blocker_some.mp held
  obtain ⟨ux, active⟩ := inv.holder id u holder
  have own := inv.owns u ux active
  have locked := (own.locks id).mp holder
  unfold Transaction.locks at locked
  split at locked
  · rename_i row phase
    obtain rfl := List.mem_singleton.mp locked
    rw [(own.inserted row phase).1] at found
    cases found
  · exact ⟨other, ux, active, locked⟩

/-- A SELECT adds to a snapshot only bets that are committed and PENDING. -/
theorem snapshot_step {db db' : Database} {action : Action} {t : TxId} {tx' : Transaction} {settlement : Settlement}
    {id : UUID} (inv : Inv db) (next : step db action = some db')
    (found : (db'.slots t).tx = some tx') (settles : tx'.call.settlement = some settlement)
    (member : id ∈ tx'.snapshot) :
    (∃ tx, (db.slots t).tx = some tx ∧ tx'.call = tx.call ∧ id ∈ tx.snapshot) ∨
      action = .select t ∧ (∃ tx, (db.slots t).tx = some tx ∧ tx'.call = tx.call) ∧
        ∃ bet, db.table.rows.lookup id = some bet ∧ bet.eventId = settlement.eventId ∧ bet.status = .pending := by
  by_cases other : t = action.tx
  · subst other
    cases step_moves next with
    | begin unused =>
      obtain rfl := Option.some.inj (setSlot_tx found)
      cases member
    | select here settles' phase =>
      obtain rfl := Option.some.inj (setSlot_tx found)
      obtain rfl := Option.some.inj (settles'.symm.trans settles)
      exact Or.inr ⟨rfl, ⟨_, congrArg Slot.tx here, rfl⟩, ((inv.owns _ _ here).mem_select phase).mp member⟩
    | fetch here phase =>
      obtain rfl := Option.some.inj (setSlot_tx found)
      exact Or.inl ⟨_, congrArg Slot.tx here, fetched_call _ _, fetched_snapshot _ _ ▸ member⟩
    | take here | skip here | drop here | update here | insert here | commit here | abort here =>
      obtain rfl := Option.some.inj (setSlot_tx found)
      exact Or.inl ⟨_, congrArg Slot.tx here, rfl, member⟩
  · exact Or.inl ⟨tx', step_other_slot next other ▸ found, rfl, member⟩

theorem visited_scanned {db db' : Database} {t : TxId} {id : UUID} (inv : Inv db)
    (all : ∀ t tx, (db.slots t).tx = some tx → Scanned db t tx) (h : step db (.visit t id) = some db')
    {tx : Transaction} (found : (db'.slots t).tx = some tx) : Scanned db t tx := by
  cases step_moves h with
  | take here settles phase member free matched =>
    obtain rfl := Option.some.inj (setSlot_tx found)
    have scanned := all _ _ (congrArg Slot.tx here)
    refine visit_scanned scanned phase rfl rfl rfl ?_ (fun _ => List.mem_append_left _)
      (fun _ _ => Or.inl) (fun _ same => same) (Or.inl ?_)
    · intro key taken
      rcases List.mem_append.mp taken with before | now
      · exact Or.inl before
      · exact Or.inr (List.mem_singleton.mp now ▸ scanned.todo _ phase _ member)
    · exact List.mem_append_right _ (List.mem_singleton_self _)
  | @skip _ _ _ _ _ holder here settles phase member held =>
    obtain rfl := Option.some.inj (setSlot_tx found)
    have scanned := all _ _ (congrArg Slot.tx here)
    have listed := scanned.todo _ phase _ member
    obtain ⟨bet, _, row, _⟩ := scanned.row _ listed
    obtain ⟨other, ux, active, taken⟩ := holder_taken inv held row
    refine visit_scanned scanned phase rfl rfl rfl (fun _ => Or.inl) (fun _ same => same) ?_
      (fun _ => List.mem_append_left _) (Or.inr (Or.inl ⟨holder, ?_⟩))
    · intro key u passed
      rcases List.mem_append.mp passed with before | now
      · exact Or.inl before
      · obtain ⟨rfl, rfl⟩ := Prod.mk.inj (List.mem_singleton.mp now)
        exact Or.inr ⟨listed, other, ux, congrArg Slot.tx active, taken⟩
    · exact List.mem_append_right _ (List.mem_singleton_self _)
  | drop here settles phase member free unmatched =>
    obtain rfl := Option.some.inj (setSlot_tx found)
    have scanned := all _ _ (congrArg Slot.tx here)
    obtain ⟨bet, settlement, row, settles', event⟩ := scanned.row _ (scanned.todo _ phase _ member)
    refine visit_scanned scanned phase rfl rfl rfl (fun _ => Or.inl) (fun _ same => same) (fun _ _ => Or.inl)
      (fun _ same => same) (Or.inr (Or.inr ⟨bet, row, fun pending => ?_⟩))
    have read := (inv.owns _ _ here).read_selecting phase id
    have refused := unmatched bet (read.trans row)
    obtain rfl := Option.some.inj (settles.symm.trans settles')
    rw [getPendingLocked_iff.mpr ⟨event, pending⟩] at refused
    cases refused

/-- All transactions, open or ended, with what the committed ones left. -/
structure Accounts (db : Database) : Prop where
  scanned : ∀ t tx, (db.slots t).tx = some tx → Scanned db t tx
  returned : ∀ t tx, db.slots t = .committed tx → tx.returned = true ∧ tx.taken.Nodup
  flipped : ∀ t tx id, db.slots t = .committed tx → id ∈ tx.taken → ∃ bet settlement,
    db.table.rows.lookup id = some bet ∧ tx.call.settlement = some settlement ∧
    bet.eventId = settlement.eventId ∧ bet.status = settlement.status ∧
    bet.settledVia = some settlement.settledVia

theorem start_accounts (rows : AList fun _ : UUID => Bet) : Accounts (Database.start rows) where
  scanned t tx found := by cases found
  returned t tx here := by cases here
  flipped t tx id here := by cases here

theorem slot_scanned {db db' : Database} {action : Action} (inv : Inv db) (accounts : Accounts db)
    (h : step db action = some db') {tx : Transaction} (found : (db'.slots action.tx).tx = some tx) :
    Scanned db action.tx tx := by
  have before : ∀ {t tx₀}, db.slots t = .active tx₀ → Scanned db t tx₀ :=
    fun here => accounts.scanned _ _ (congrArg Slot.tx here)
  cases step_moves h with
  | begin unused =>
    obtain rfl := Option.some.inj (setSlot_tx found)
    exact ⟨by simp, by simp, by simp, by simp, by simp, by simp⟩
  | select here settles phase =>
    obtain rfl := Option.some.inj (setSlot_tx found)
    exact select_scanned (inv.owns _ _ here) settles phase (before here)
  | take | skip | drop => exact visited_scanned inv accounts.scanned h found
  | fetch here phase =>
    obtain rfl := Option.some.inj (setSlot_tx found)
    exact scanned_phase (before here) (fetched_call _ _) (fetched_snapshot _ _) (fetched_taken _ _)
      (fetched_skipped _ _) (by simp) (by simp) (by simp [phase])
  | update here settles phase some_taken written | insert here places phase row fresh free =>
    obtain rfl := Option.some.inj (setSlot_tx found)
    exact scanned_phase (before here) rfl rfl rfl rfl (by simp) (by simp) (by simp [phase])
  | commit here | abort here =>
    obtain rfl := Option.some.inj (setSlot_tx found)
    exact before here

/-- What a transaction took is not PENDING after its commit. -/
theorem commit_flips {db db' : Database} {t : TxId} {tx : Transaction} {id : UUID} (inv : Inv db)
    (here : db.slots t = .active tx) (h : step db (.commit t) = some db') (taken : id ∈ tx.taken) :
    ∃ bet settlement, db'.table.rows.lookup id = some bet ∧ tx.call.settlement = some settlement ∧
      bet.eventId = settlement.eventId ∧ bet.status = settlement.status ∧
      bet.settledVia = some settlement.settledVia := by
  have own := inv.owns t tx here
  obtain ⟨bet, settlement, before, settles, event, pending⟩ := own.pending id taken
  cases step_moves h with
  | commit here' returned =>
    obtain rfl := Slot.active.inj (here.symm.trans here')
    refine ⟨settlement.update tx.now bet, settlement, ?_, settles, event, rfl, rfl⟩
    rw [Table.commit_rows, own.written, returned_version own settles returned, if_pos taken, before, Option.map_some,
      Option.some_or]

theorem Accounts.decided {db : Database} (accounts : Accounts db) {t : TxId} {tx : Transaction} {id : UUID}
    (here : db.slots t = .committed tx) (taken : id ∈ tx.taken) : db.Decided id := by
  obtain ⟨bet, settlement, found, settles, -, status, -⟩ := accounts.flipped t tx id here taken
  exact ⟨bet, found, status ▸ (Call.settlement_decides settles).1⟩

theorem committed_step {db db' : Database} {action : Action} (h : step db action = some db') {t : TxId}
    {tx : Transaction} (here : db'.slots t = .committed tx) : db.slots t = .committed tx ∨
      action = .commit t ∧ db.slots t = .active tx ∧ tx.returned = true := by
  by_cases other : t = action.tx
  · subst other
    cases step_moves h with
    | commit before returned =>
      simp only [Action.tx, setSlot_slots, if_true, Slot.committed.injEq] at here
      subst here
      exact Or.inr ⟨rfl, before, returned⟩
    | _ => simp [Action.tx, abort] at here
  · exact Or.inl (step_other_slot h other ▸ here)

theorem step_accounts {db db' : Database} {action : Action} (inv : Inv db) (accounts : Accounts db)
    (h : step db action = some db') : Accounts db' := by
  have later := step_later inv h
  refine ⟨fun t tx found => ?_, fun t tx here => ?_, fun t tx id here taken => ?_⟩
  · apply scanned_later later
    by_cases other : t = action.tx
    · subst other
      exact slot_scanned inv accounts h found
    · exact accounts.scanned t tx (step_other_slot h other ▸ found)
  · rcases committed_step h here with before | ⟨-, before, returned⟩
    · exact accounts.returned t tx before
    · exact ⟨returned, (inv.owns t tx before).distinct⟩
  · rcases committed_step h here with before | ⟨rfl, before, -⟩
    · obtain ⟨bet, settlement, found, settles, event, status, via⟩ := accounts.flipped t tx id before taken
      obtain ⟨bet', found', grown⟩ := later.rows id bet found
      obtain rfl := grown.decided (status ▸ (Call.settlement_decides settles).1)
      exact ⟨bet', settlement, found', settles, event, status, via⟩
    · exact commit_flips inv before h taken

theorem run_accounts {db db' : Database} {actions : List Action} (inv : Inv db) (accounts : Accounts db)
    (h : run step db actions = some db') : Inv db' ∧ Accounts db' :=
  run_invariant (P := fun db => Inv db ∧ Accounts db)
    (fun _ _ _ held next => ⟨step_inv held.1 next, step_accounts held.1 held.2 next⟩) ⟨inv, accounts⟩ h

/-- A committed transaction settled its whole snapshot, but for rows whose holder has not committed. -/
theorem committed_drains {db : Database} (accounts : Accounts db) {t : TxId} {tx : Transaction} {id : UUID}
    (here : db.slots t = .committed tx) (listed : id ∈ tx.snapshot) :
    db.Decided id ∨ ∃ u ux, (id, u) ∈ tx.skipped ∧ u ≠ t ∧ id ∈ ux.taken ∧
      (db.slots u = .active ux ∨ db.slots u = .aborted ux) := by
  have scanned := accounts.scanned t tx (congrArg Slot.tx here)
  rcases scanned.accounted id listed with ⟨todo, phase, -⟩ | taken | ⟨u, passed⟩ | decided
  · have returned := (accounts.returned t tx here).1
    simp [Transaction.returned, phase] at returned
  · exact Or.inl (accounts.decided here taken)
  · obtain ⟨-, other, ux, found, taken⟩ := scanned.skipped id u passed
    cases slot : db.slots u with
    | unused =>
      rw [slot] at found
      cases found
    | active ux' =>
      obtain rfl : ux' = ux := Option.some.inj (by rw [slot] at found; exact found)
      exact Or.inr ⟨u, ux', passed, other, taken, Or.inl slot⟩
    | committed ux' =>
      obtain rfl : ux' = ux := Option.some.inj (by rw [slot] at found; exact found)
      exact Or.inl (accounts.decided slot taken)
    | aborted ux' =>
      obtain rfl : ux' = ux := Option.some.inj (by rw [slot] at found; exact found)
      exact Or.inr ⟨u, ux', passed, other, taken, Or.inr slot⟩
  · exact Or.inl decided

end BetSettlement.BetMaker
