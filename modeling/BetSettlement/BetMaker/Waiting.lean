import BetSettlement.BetMaker.Locks

/-!
# No transaction waits

`get_pending_locked` skips what others have locked, and the UPDATE writes only what the SELECT has locked. So
no settlement waits for another transaction, and an INSERT waits only for one that has inserted the same key.
-/

namespace BetSettlement.BetMaker
open Python Machine

/-- The statements that are left, once the SELECT has been issued. -/
def Transaction.remaining (tx : Transaction) : Nat :=
  match tx.phase with
  | .opened => 0
  | .selecting todo => todo.length + 3
  | .fetched => 2
  | .updated | .inserted _ => 1

def Slot.remaining : Slot → Nat
  | .active tx => tx.remaining
  | _ => 0

/-- The transaction has ended, or it is past its first statement. -/
def Slot.Started : Slot → Prop
  | .unused => False
  | .active tx => tx.phase ≠ .opened
  | .committed _ | .aborted _ => True

theorem remaining_pos {tx : Transaction} (started : tx.phase ≠ .opened) : 0 < tx.remaining := by
  unfold Transaction.remaining
  split
  · rename_i opened
    exact absurd opened started
  all_goals omega

theorem erase_remaining {todo : List UUID} {id : UUID} (member : id ∈ todo) :
    (todo.erase id).length + 3 < todo.length + 3 := by
  have shorter := List.length_erase_of_mem member
  have some_left := List.length_pos_of_mem member
  omega

/-- Each statement of its own brings a transaction nearer to its end. -/
theorem own_step {db db' : Database} {action : Action} (started : (db.slots action.tx).Started)
    (h : step db action = some db') :
    (db'.slots action.tx).Started ∧ (db'.slots action.tx).remaining < (db.slots action.tx).remaining := by
  have moved : ∀ {t tx slot}, db.slots t = .active tx → slot.Started → slot.remaining < tx.remaining →
      Slot.Started slot ∧ slot.remaining < (db.slots t).remaining := by
    intro t tx slot here kept less
    rw [here]
    exact ⟨kept, less⟩
  cases step_moves h with
  | begin unused =>
    simp only [Action.tx, unused] at started
    exact started.elim
  | @select t tx settlement here settles phase =>
    simp only [Action.tx, here] at started
    exact absurd phase started
  | @insert t tx eventId amount id bet here places phase =>
    simp only [Action.tx, here] at started
    exact absurd phase started
  | take here settles phase member | skip here settles phase member | drop here settles phase member =>
    simp only [Action.tx, setSlot_slots, if_pos]
    refine moved here (by simp [Slot.Started, Transaction.take, Transaction.skip, Transaction.drop]) ?_
    simpa [Slot.remaining, Transaction.remaining, phase, Transaction.take, Transaction.skip, Transaction.drop]
      using erase_remaining member
  | fetch here phase =>
    simp only [Action.tx, setSlot_slots, if_pos]
    exact moved here (by simp [Slot.Started]) (by simp [Slot.remaining, Transaction.remaining, phase])
  | update here settles phase =>
    simp only [Action.tx, setSlot_slots, if_pos]
    exact moved here (by simp [Slot.Started]) (by simp [Slot.remaining, Transaction.remaining, phase])
  | commit here | abort here =>
    simp only [Action.tx, here] at started
    simp only [Action.tx, abort, setSlot_slots, if_pos]
    exact moved here trivial (remaining_pos started)

/-- Whatever the others do in between, a transaction ends after so many statements of its own. -/
theorem run_remaining {db db' : Database} {actions : List Action} {t : TxId} (started : (db.slots t).Started)
    (h : run step db actions = some db') :
    (actions.filter fun action => action.tx = t).length + (db'.slots t).remaining ≤ (db.slots t).remaining := by
  have keep : ∀ s action s', (s.slots t).Started → step s action = some s' → (s'.slots t).Started := by
    intro s action s' held next
    by_cases own : action.tx = t
    · subst own
      exact (own_step held next).1
    · rw [step_other_slot next (Ne.symm own)]
      exact held
  have own : ∀ s action s', (s.slots t).Started → step s action = some s' → decide (action.tx = t) = true →
      (s'.slots t).remaining < (s.slots t).remaining := by
    intro s action s' held next own
    obtain rfl := of_decide_eq_true own
    exact (own_step held next).2
  have other : ∀ s action s', (s.slots t).Started → step s action = some s' → decide (action.tx = t) = false →
      (s'.slots t).remaining ≤ (s.slots t).remaining := by
    intro s action s' _ next other
    rw [step_other_slot next (Ne.symm (of_decide_eq_false other))]
  exact run_ranked keep own other started h

/-! ### What a transaction can do by itself -/

/-- The statements of `t` alone take the database to the commit of `t`. -/
def Commits (db : Database) (t : TxId) : Prop :=
  ∃ own db' tx, (∀ action ∈ own, action.tx = t) ∧ run step db own = some db' ∧ db'.slots t = .committed tx

theorem Commits.after {db db' : Database} {t : TxId} {action : Action} (own : action.tx = t)
    (next : step db action = some db') (h : Commits db' t) : Commits db t := by
  obtain ⟨rest, last, tx, only, reached, ended⟩ := h
  refine ⟨action :: rest, last, tx, ?_, run_cons.mpr ⟨db', next, reached⟩, ended⟩
  intro other member
  rcases List.mem_cons.mp member with rfl | later
  · exact own
  · exact only other later

theorem returned_commits {db : Database} {t : TxId} {tx : Transaction} (here : db.slots t = .active tx)
    (returned : tx.returned = true) : Commits db t := by
  have next : step db (.commit t) = some { db.setSlot t (.committed tx) with table := db.table.commit t } := by
    simp [step, Database.during, here, commit, returned]
  exact ⟨[.commit t], _, tx, by simp [Action.tx], run_cons.mpr ⟨_, next, run_nil.mpr rfl⟩, by simp⟩

theorem fetched_commits {db : Database} {t : TxId} {tx : Transaction} {settlement : Settlement} (inv : Inv db)
    (here : db.slots t = .active tx) (settles : tx.call.settlement = some settlement)
    (phase : tx.phase = .fetched) : Commits db t := by
  by_cases none_taken : tx.taken = []
  · exact returned_commits here (by simp [Transaction.returned, phase, none_taken])
  · -- Every row of the UPDATE is locked by `t` since the SELECT.
    have free : ∀ id ∈ tx.taken, db.table.blocker t id = none := by
      intro id member
      exact Table.blocker_none.mpr (Or.inr ((inv.owns t tx here).held member))
    obtain ⟨table, written⟩ : ∃ table, db.table.update t (settlement.update tx.now) tx.taken = some table :=
      Option.isSome_iff_exists.mp (Table.update_isSome free)
    have next : step db (.update t) =
        some { db.setSlot t (.active { tx with phase := .updated }) with table } := by
      simp [step, Database.during, here, update, settles, phase, none_taken, written]
    exact (returned_commits (by simp; rfl) rfl).after rfl next

theorem selecting_commits {todo : List UUID} {db : Database} {t : TxId} {tx : Transaction} {settlement : Settlement}
    (inv : Inv db) (here : db.slots t = .active tx) (settles : tx.call.settlement = some settlement)
    (phase : tx.phase = .selecting todo) : Commits db t := by
  induction todo generalizing db tx with
  | nil =>
    have next : step db (.fetch t 0) = some (db.setSlot t (.active (tx.fetched 0))) := by
      simp [step, Database.during, here, fetch, phase]
    have same : (tx.fetched 0).call.settlement = some settlement := by rwa [fetched_call]
    exact (fetched_commits (step_inv inv next) (by simp) same (fetched_phase tx 0)).after rfl next
  | cons id rest ih =>
    have passes : ∃ db' tx', step db (.visit t id) = some db' ∧ db'.slots t = .active tx' ∧ tx'.call = tx.call ∧
        tx'.phase = .selecting rest := by
      cases outcome : db.table.visit t (getPendingLocked settlement.eventId) id with
      | taken =>
        exact ⟨{ db.setSlot t (.active (tx.take (id :: rest) id)) with table := db.table.lock t id },
          tx.take (id :: rest) id, by simp [step, Database.during, here, visit, settles, phase, outcome], by simp, rfl,
          by simp [Transaction.take]⟩
      | skipped holder =>
        exact ⟨db.setSlot t (.active (tx.skip (id :: rest) id holder)), tx.skip (id :: rest) id holder,
          by simp [step, Database.during, here, visit, settles, phase, outcome], by simp, rfl,
          by simp [Transaction.skip]⟩
      | dropped =>
        exact ⟨db.setSlot t (.active (tx.drop (id :: rest) id)), tx.drop (id :: rest) id,
          by simp [step, Database.during, here, visit, settles, phase, outcome], by simp, rfl,
          by simp [Transaction.drop]⟩
    obtain ⟨db', tx', next, here', call, phase'⟩ := passes
    exact (ih (step_inv inv next) here' (call ▸ settles) phase').after rfl next

theorem settlement_commits {db : Database} {t : TxId} {tx : Transaction} {settlement : Settlement} (inv : Inv db)
    (here : db.slots t = .active tx) (settles : tx.call.settlement = some settlement) : Commits db t := by
  cases phase : tx.phase with
  | opened =>
    have next : step db (.select t) = some (db.setSlot t (.active (tx.selected
        (db.table.select t (getPendingLocked settlement.eventId))))) := by
      simp [step, Database.during, here, select, settles, phase]
    have selected : (tx.selected (db.table.select t (getPendingLocked settlement.eventId))).call = tx.call := rfl
    exact (selecting_commits (step_inv inv next) ((setSlot_slots _ _ _ _).trans (if_pos rfl)) (selected ▸ settles)
      rfl).after rfl next
  | selecting todo => exact selecting_commits inv here settles phase
  | fetched => exact fetched_commits inv here settles phase
  | updated => exact returned_commits here (by simp [Transaction.returned, phase])
  | inserted bet => exact returned_commits here (by simp [Transaction.returned, phase])

theorem insert_commits {db : Database} {t : TxId} {tx : Transaction} {eventId id : UUID} {amount : Decimal} {bet : Bet}
    (inv : Inv db) (here : db.slots t = .active tx) (places : tx.call = .placeBet eventId amount)
    (phase : tx.phase = .opened) (row : Bet.create id eventId amount tx.now = some bet)
    (absent : db.table.rows.lookup id = none) (free : db.table.blocker t id = none) :
    ∃ db', step db (.insert t id) = some db' ∧ Commits db' t := by
  have clean : db.table.read t id = none := by
    rw [(inv.owns t tx here).read (version_none (by simp [phase]) (by simp [phase]) _) id]
    exact absent
  have inserted : db.table.insert t id bet = some (db.table.put t id bet) := by
    simp [Table.insert, clean, free]
  have next : step db (.insert t id) = some { db.setSlot t (.active { tx with phase := .inserted bet }) with
      table := db.table.put t id bet } := by
    simp [step, Database.during, here, insert, places, phase, row, inserted]
  exact ⟨_, next, returned_commits ((setSlot_slots _ _ _ _).trans (if_pos rfl)) rfl⟩

/-- A key that is not committed is locked by the transaction that inserts it. -/
theorem blocker_inserted {db : Database} {t u : TxId} {id : UUID} (inv : Inv db)
    (held : db.table.blocker t id = some u) (absent : db.table.rows.lookup id = none) :
    ∃ ux other, u ≠ t ∧ db.slots u = .active ux ∧ ux.phase = .inserted other ∧ other.id = id := by
  obtain ⟨holder, different⟩ := Table.blocker_some.mp held
  obtain ⟨ux, active⟩ := inv.holder id u holder
  have own := inv.owns u ux active
  have locked := (own.locks id).mp holder
  unfold Transaction.locks at locked
  split at locked
  · rename_i other inserted
    exact ⟨ux, other, different, active, inserted, (List.mem_singleton.mp locked).symm⟩
  · obtain ⟨bet, -, found, -⟩ := own.pending id locked
    cases found.symm.trans absent

/-- The locks that can make a transaction wait. -/
structure NeverWaits (db : Database) : Prop where
  settles : ∀ t tx settlement, db.slots t = .active tx → tx.call.settlement = some settlement → Commits db t
  inserts : ∀ t tx eventId amount id bet, db.slots t = .active tx → tx.call = .placeBet eventId amount →
    tx.phase = .opened → Bet.create id eventId amount tx.now = some bet →
      (∃ db', step db (.insert t id) = some db' ∧ Commits db' t) ∨ (db.table.rows.lookup id).isSome ∨
        ∃ u ux other, u ≠ t ∧ db.slots u = .active ux ∧ ux.phase = .inserted other ∧ other.id = id ∧ Commits db u
  ends : ∀ t tx, db.slots t = .active tx → tx.phase ≠ .opened → ∀ more db', run step db more = some db' →
    (more.filter fun action => action.tx = t).length ≤ tx.remaining

/-- In no state can transactions wait for each other: a settlement comes to its commit by its own statements,
an INSERT waits at most for a commit of the same key, and the statements of a transaction are bounded. -/
theorem transactions_never_wait {rows : AList fun _ : UUID => Bet} {actions : List Action} {db : Database}
    (reached : run step (Database.start rows) actions = some db) : NeverWaits db where
  settles t tx settlement here settles := settlement_commits (run_inv (start_inv rows) reached) here settles
  inserts t tx eventId amount id bet here places phase row := by
    have inv := run_inv (start_inv rows) reached
    cases stored : db.table.rows.lookup id with
    | some other => exact Or.inr (Or.inl rfl)
    | none =>
      cases held : db.table.blocker t id with
      | none => exact Or.inl (insert_commits inv here places phase row stored held)
      | some u =>
        obtain ⟨ux, other, different, active, inserted, same⟩ := blocker_inserted inv held stored
        exact Or.inr (Or.inr ⟨u, ux, other, different, active, inserted, same,
          returned_commits active (by simp [Transaction.returned, inserted])⟩)
  ends t tx here started more db' h := by
    have bound := run_remaining (t := t) (by rw [here]; exact started) h
    rw [here] at bound
    exact (Nat.le_add_right _ _).trans bound

/-- A settlement has locked bet 100, another one has found it, and two placements draw the key 101. -/
def contended : List Action :=
  [.begin 0 (.placeBet 7 ⟨false, 10, 0⟩) 0 1, .insert 0 100, .commit 0,
   .begin 1 (.settleBetsForEvent 7 .finishedWin .consumer) 0 2, .select 1,
   .begin 2 (.cancelBetsForEvent 7) 0 3, .select 2, .visit 1 100,
   .begin 3 (.placeBet 7 ⟨false, 20, 0⟩) 0 4, .insert 3 101, .begin 4 (.placeBet 7 ⟨false, 30, 0⟩) 0 5]

theorem transactions_never_wait_contended : ∃ db, run step (Database.start ∅) contended = some db ∧
    NeverWaits db ∧ db.table.blocker 2 100 = some 1 ∧ db.table.blocker 4 101 = some 3 ∧ Commits db 2 := by
  obtain ⟨db, reached⟩ := Option.isSome_iff_exists.mp
    (show (run step (Database.start ∅) contended).isSome = true by decide)
  have held : (run step (Database.start ∅) contended).map (fun db =>
      (db.table.blocker 2 100, db.table.blocker 4 101)) = some (some 1, some 3) := by decide
  have waits : (run step (Database.start ∅) contended).map (fun db => db.slots 2) = some (.active
      { call := .cancelBetsForEvent 7, now := 3, clock := 0, phase := .selecting [100], snapshot := [100] }) := by
    decide
  rw [reached] at held waits
  obtain ⟨locked, inserted⟩ := Prod.mk.inj (Option.some.inj held)
  have never := transactions_never_wait reached
  exact ⟨db, reached, never, locked, inserted, never.settles 2 _ _ (Option.some.inj waits) rfl⟩

end BetSettlement.BetMaker
