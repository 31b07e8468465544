import BetSettlement.BetMaker.Transactions

/-!
# Who holds a row

The UPDATE has no status filter, so a bet settles once only because the rows a transaction took
stay locked, and stay PENDING, until it ends.
-/

namespace BetSettlement.BetMaker
open Python Machine

def Transaction.locks (tx : Transaction) : List UUID :=
  match tx.phase with
  | .inserted bet => [bet.id]
  | _ => tx.taken

/-- The uncommitted version of a row. -/
def Transaction.version (tx : Transaction) (rows : AList fun _ : UUID => Bet) (id : UUID) : Option Bet :=
  match tx.phase with
  | .inserted bet => if id = bet.id then some bet else none
  | .updated =>
    if id ∈ tx.taken then tx.call.settlement.bind fun settlement =>
      (rows.lookup id).map (settlement.update tx.now)
    else none
  | _ => none

/-- The table as an open transaction has left it. -/
structure Owns (table : Table UUID Bet TxId) (t : TxId) (tx : Transaction) : Prop where
  locks : ∀ id, table.holder id = some t ↔ id ∈ tx.locks
  written : ∀ id, (table.written t).lookup id = tx.version table.rows id
  pending : ∀ id ∈ tx.taken, ∃ bet settlement, table.rows.lookup id = some bet ∧
    tx.call.settlement = some settlement ∧ bet.eventId = settlement.eventId ∧ bet.status = .pending
  distinct : tx.taken.Nodup
  opened : tx.phase = .opened → tx.taken = []
  todo : ∀ todo, tx.phase = .selecting todo → todo.Nodup ∧ ∀ id ∈ todo, id ∉ tx.taken
  inserted : ∀ bet, tx.phase = .inserted bet → table.rows.lookup bet.id = none ∧ tx.taken = [] ∧
    ∃ amount, tx.call = .placeBet bet.eventId amount ∧
      Bet.create bet.id bet.eventId amount tx.now = some bet

structure Inv (db : Database) : Prop where
  owns : ∀ t tx, db.slots t = .active tx → Owns db.table t tx
  holder : ∀ id t, db.table.holder id = some t → ∃ tx, db.slots t = .active tx
  unused : ∀ t, db.slots t = .unused → db.table.written t = ∅

/-- A table that no transaction is working on. -/
def Database.start (rows : AList fun _ : UUID => Bet) : Database := { table := { rows } }

theorem start_inv (rows : AList fun _ : UUID => Bet) : Inv (Database.start rows) where
  owns t tx here := by cases here
  holder id t held := by cases held
  unused t _ := rfl

theorem Owns.held {table : Table UUID Bet TxId} {t : TxId} {tx : Transaction} (h : Owns table t tx)
    {id : UUID} (member : id ∈ tx.taken) : table.holder id = some t := by
  rw [h.locks, Transaction.locks]
  split
  · rename_i bet phase
    simp [(h.inserted bet phase).2.1] at member
  · exact member

theorem Owns.held_inserted {table : Table UUID Bet TxId} {t : TxId} {tx : Transaction} (h : Owns table t tx)
    {bet : Bet} (phase : tx.phase = .inserted bet) : table.holder bet.id = some t := by
  rw [h.locks, Transaction.locks, phase]
  exact List.mem_singleton_self _

theorem owns_frame {table table' : Table UUID Bet TxId} {t u : TxId} {tx : Transaction}
    (frame : Table.Frame t table table') (other : u ≠ t) (h : Owns table u tx) : Owns table' u tx where
  locks id := (frame.holder u other id).trans (h.locks id)
  written id := by
    rw [frame.written u other, h.written]
    unfold Transaction.version
    split
    · rfl
    · split
      · rename_i member
        rw [frame.rows u other id (h.held member)]
      · rfl
    · rfl
  pending id member := by
    rw [frame.rows u other id (h.held member)]
    exact h.pending id member
  distinct := h.distinct
  opened := h.opened
  todo := h.todo
  inserted bet phase := by
    rw [frame.rows u other bet.id (h.held_inserted phase)]
    exact h.inserted bet phase

theorem inv_move {db : Database} {t : TxId} {slot : Slot} {table : Table UUID Bet TxId} (inv : Inv db)
    (frame : Table.Frame t db.table table) (used : slot ≠ .unused)
    (owns : ∀ tx, slot = .active tx → Owns table t tx)
    (ended : (∀ tx, slot ≠ .active tx) → ∀ id, table.holder id ≠ some t) :
    Inv { db.setSlot t slot with table } where
  owns u tx here := by
    by_cases same : u = t
    · subst same
      exact owns tx (by simpa using here)
    · exact owns_frame frame same (inv.owns u tx (by simpa [same] using here))
  holder id u held := by
    by_cases same : u = t
    · subst same
      by_contra none_active
      push Not at none_active
      exact ended (by simpa using none_active) id held
    · simpa [same] using inv.holder id u ((frame.holder u same id).mp held)
  unused u here := by
    by_cases same : u = t
    · subst same
      exact absurd (by simpa using here) used
    · exact (frame.written u same).trans (inv.unused u (by simpa [same] using here))

theorem inv_active {db : Database} {t : TxId} {tx : Transaction} {table : Table UUID Bet TxId} (inv : Inv db)
    (frame : Table.Frame t db.table table) (owns : Owns table t tx) :
    Inv { db.setSlot t (.active tx) with table } :=
  inv_move inv frame (by simp) (fun _ same => Slot.active.inj same ▸ owns) (by simp)

/-- A transaction that has written nothing reads what is committed. -/
theorem Owns.read {table : Table UUID Bet TxId} {t : TxId} {tx : Transaction} (h : Owns table t tx)
    (clean : ∀ id, tx.version table.rows id = none) (id : UUID) : table.read t id = table.rows.lookup id := by
  rw [Table.read_eq, h.written, clean, Option.none_or]

theorem version_none {tx : Transaction} (updated : tx.phase ≠ .updated) (inserted : ∀ bet, tx.phase ≠ .inserted bet)
    (rows : AList fun _ : UUID => Bet) (id : UUID) : tx.version rows id = none := by
  unfold Transaction.version
  split
  · rename_i bet phase
    exact absurd phase (inserted bet)
  · rename_i phase
    exact absurd phase updated
  · rfl

theorem Owns.read_selecting {table : Table UUID Bet TxId} {t : TxId} {tx : Transaction} {todo : List UUID}
    (h : Owns table t tx) (phase : tx.phase = .selecting todo) (id : UUID) :
    table.read t id = table.rows.lookup id :=
  h.read (version_none (by simp [phase]) (by simp [phase]) _) id

/-- A SELECT finds the bets of its event that are committed and PENDING. -/
theorem Owns.mem_select {table : Table UUID Bet TxId} {t : TxId} {tx : Transaction} {eventId id : UUID}
    (h : Owns table t tx) (phase : tx.phase = .opened) : id ∈ table.select t (getPendingLocked eventId) ↔
      ∃ bet, table.rows.lookup id = some bet ∧ bet.eventId = eventId ∧ bet.status = .pending := by
  rw [Table.mem_select, h.read (version_none (by simp [phase]) (by simp [phase]) _)]
  simp only [getPendingLocked_iff]

/-- The uncommitted versions of a transaction that is about to commit a settlement. -/
theorem returned_version {table : Table UUID Bet TxId} {t : TxId} {tx : Transaction} {settlement : Settlement}
    (own : Owns table t tx) (settles : tx.call.settlement = some settlement) (returned : tx.returned = true)
    (id : UUID) : tx.version table.rows id =
      if id ∈ tx.taken then (table.rows.lookup id).map (settlement.update tx.now) else none := by
  unfold Transaction.returned at returned
  unfold Transaction.version
  split at returned
  · rename_i phase
    simp [phase, List.isEmpty_iff.mp returned]
  · rename_i phase
    simp [phase, settles]
  · rename_i bet phase
    obtain ⟨-, -, amount, call, -⟩ := own.inserted bet phase
    rw [call] at settles
    cases settles
  all_goals cases returned

theorem locks_taken {tx : Transaction} (inserted : ∀ bet, tx.phase ≠ .inserted bet) : tx.locks = tx.taken := by
  unfold Transaction.locks
  split
  · rename_i bet phase
    exact absurd phase (inserted bet)
  · rfl

theorem begin_owns {db : Database} (inv : Inv db) {t : TxId} (unused : db.slots t = .unused) (call : Call)
    (clock now : Instant) : Owns db.table t { call, now, clock } where
  locks id := by
    constructor
    · intro held
      obtain ⟨tx, here⟩ := inv.holder id t held
      rw [unused] at here
      cases here
    · intro member
      cases member
  written id := by
    rw [inv.unused t unused]
    rfl
  pending id member := by cases member
  distinct := List.nodup_nil
  opened _ := rfl
  todo todo phase := by cases phase
  inserted bet phase := by cases phase

theorem select_owns {table : Table UUID Bet TxId} {t : TxId} {tx : Transaction} {found : List UUID}
    (h : Owns table t tx) (phase : tx.phase = .opened) (distinct : found.Nodup) :
    Owns table t (tx.selected found) where
  locks id := by
    rw [h.locks, locks_taken (by simp [phase]), locks_taken (by simp [Transaction.selected])]
    rfl
  written id := by
    rw [h.written, version_none (by simp [phase]) (by simp [phase]),
      version_none (by simp [Transaction.selected]) (by simp [Transaction.selected])]
  pending := h.pending
  distinct := h.distinct
  opened opened := by cases opened
  todo todo selecting := by
    cases selecting
    refine ⟨distinct, fun id _ taken => ?_⟩
    have none_taken : tx.taken = [] := h.opened phase
    simp [Transaction.selected, none_taken] at taken
  inserted bet inserted := by cases inserted

theorem take_owns {table : Table UUID Bet TxId} {t : TxId} {tx : Transaction} {settlement : Settlement}
    {todo : List UUID} {id : UUID} (h : Owns table t tx) (settles : tx.call.settlement = some settlement)
    (phase : tx.phase = .selecting todo) (member : id ∈ todo)
    (matched : ∃ bet, table.read t id = some bet ∧ getPendingLocked settlement.eventId bet = true) :
    Owns (table.lock t id) t (tx.take todo id) where
  locks key := by
    rw [Table.lock_holder, locks_taken (by simp [Transaction.take])]
    split
    · rename_i same
      simp [Transaction.take, same]
    · rename_i other
      rw [h.locks, locks_taken (by simp [phase])]
      simp [Transaction.take, other]
  written key := by
    rw [Table.lock_written, h.written, version_none (by simp [phase]) (by simp [phase]),
      version_none (by simp [Transaction.take]) (by simp [Transaction.take])]
  pending key taken := by
    rcases List.mem_append.mp taken with before | now
    · exact h.pending key before
    · obtain rfl := List.mem_singleton.mp now
      obtain ⟨bet, read, accepted⟩ := matched
      rw [h.read_selecting phase] at read
      obtain ⟨event, pending⟩ := getPendingLocked_iff.mp accepted
      exact ⟨bet, settlement, read, settles, event, pending⟩
  distinct := by
    have fresh := (h.todo todo phase).2 id member
    exact List.Nodup.append h.distinct (List.nodup_singleton id) (by simpa using fresh)
  opened opened := by cases opened
  todo rest selecting := by
    cases selecting
    obtain ⟨distinct, fresh⟩ := h.todo todo phase
    refine ⟨distinct.erase id, fun key left taken => ?_⟩
    obtain ⟨other, left⟩ := distinct.mem_erase_iff.mp left
    rcases List.mem_append.mp taken with before | now
    · exact fresh key left before
    · exact other (List.mem_singleton.mp now)
  inserted bet inserted := by cases inserted

/-- The SELECT passes a row over, or it is complete. -/
theorem pass_owns {table : Table UUID Bet TxId} {t : TxId} {tx tx' : Transaction} {todo : List UUID}
    (h : Owns table t tx) (phase : tx.phase = .selecting todo) (call : tx'.call = tx.call)
    (taken : tx'.taken = tx.taken)
    (later : tx'.phase = .fetched ∨ ∃ id, tx'.phase = .selecting (todo.erase id)) :
    Owns table t tx' where
  locks id := by
    rw [h.locks, locks_taken (by simp [phase]), locks_taken, taken]
    rcases later with fetched | ⟨id, left⟩ <;> simp [*]
  written id := by
    rw [h.written, version_none (by simp [phase]) (by simp [phase]), version_none]
    · rcases later with fetched | ⟨id, left⟩ <;> simp [*]
    · rcases later with fetched | ⟨id, left⟩ <;> simp [*]
  pending id member := by
    rw [call]
    exact h.pending id (taken ▸ member)
  distinct := taken ▸ h.distinct
  opened opened := by rcases later with fetched | ⟨id, left⟩ <;> simp_all
  todo rest selecting := by
    obtain ⟨distinct, fresh⟩ := h.todo todo phase
    rcases later with fetched | ⟨id, left⟩
    · rw [fetched] at selecting
      cases selecting
    · rw [left] at selecting
      cases selecting
      rw [taken]
      exact ⟨distinct.erase id, fun key member => fresh key (List.mem_of_mem_erase member)⟩
  inserted bet inserted := by rcases later with fetched | ⟨id, left⟩ <;> simp_all

theorem update_owns {table table' : Table UUID Bet TxId} {t : TxId} {tx : Transaction}
    {settlement : Settlement} (h : Owns table t tx) (settles : tx.call.settlement = some settlement)
    (phase : tx.phase = .fetched) (updates : Table.Updates table t (settlement.update tx.now) tx.taken table') :
    Owns table' t { tx with phase := .updated } := by
  have read := h.read (version_none (by simp [phase]) (by simp [phase]) table.rows)
  have present : ∀ id ∈ tx.taken, (table.read t id).isSome = true := by
    intro id member
    obtain ⟨bet, _, found, _⟩ := h.pending id member
    rw [read, found]
    rfl
  have rows := updates.rows
  refine ⟨fun id => ?_, fun id => ?_, ?_, h.distinct, ?_, ?_, ?_⟩
  · rw [updates.holder, locks_taken (by simp)]
    split
    · rename_i touched
      exact iff_of_true rfl touched.1
    · rw [h.locks, locks_taken (by simp [phase])]
  · rw [updates.written]
    by_cases member : id ∈ tx.taken
    · rw [if_pos ⟨member, present id member⟩]
      simp [member, Transaction.version, settles, read, rows]
    · simp [member, Transaction.version, h.written, phase]
  · rw [rows]
    exact h.pending
  all_goals simp

theorem insert_owns {table : Table UUID Bet TxId} {t : TxId} {tx : Transaction} {eventId id : UUID}
    {amount : Decimal} {bet : Bet} (h : Owns table t tx) (places : tx.call = .placeBet eventId amount)
    (phase : tx.phase = .opened) (row : Bet.create id eventId amount tx.now = some bet)
    (fresh : table.read t id = none) : Owns (table.put t id bet) t { tx with phase := .inserted bet } := by
  have empty := h.opened phase
  obtain ⟨rfl, rfl, -⟩ := Bet.create_ok row
  have clean : ∀ id, tx.version table.rows id = none :=
    version_none (by simp [phase]) (by simp [phase]) table.rows
  rw [h.read clean] at fresh
  refine ⟨fun key => ?_, fun key => ?_, ?_, h.distinct, ?_, ?_, ?_⟩
  · rw [Table.put_holder]
    split
    · rename_i same
      simp [Transaction.locks, same]
    · rename_i other
      rw [h.locks, locks_taken (by simp [phase])]
      simp [Transaction.locks, empty, other]
  · rw [Table.put_written]
    split
    · rename_i same
      simp [Transaction.version, same]
    · rename_i other
      rw [h.written, clean]
      simp [Transaction.version, other]
  · intro key member
    simp [empty] at member
  · simp
  · simp
  · intro inserted same
    obtain rfl := Phase.inserted.inj same
    exact ⟨fresh, empty, amount, places, row⟩

/-- Only locked rows have an uncommitted version. -/
theorem Owns.version_held {table : Table UUID Bet TxId} {t : TxId} {tx : Transaction} (h : Owns table t tx)
    (id : UUID) (bet : Bet) (found : (table.written t).lookup id = some bet) : table.holder id = some t := by
  rw [h.written] at found
  unfold Transaction.version at found
  split at found
  · rename_i inserted phase
    split at found
    · rename_i same
      exact same ▸ h.held_inserted phase
    · cases found
  · split at found
    · rename_i member
      exact h.held member
    · cases found
  · cases found

theorem step_inv {db db' : Database} {action : Action} (inv : Inv db) (h : step db action = some db') :
    Inv db' := by
  cases step_moves h with
  | begin unused => exact inv_active inv (Table.frame_refl _ _) (begin_owns inv unused _ _ _)
  | select here settles phase =>
    exact inv_active inv (Table.frame_refl _ _)
      (select_owns (inv.owns _ _ here) phase (Table.select_nodup _ _ _))
  | take here settles phase member free matched =>
    exact inv_active inv (Table.lock_frame free) (take_owns (inv.owns _ _ here) settles phase member matched)
  | skip here settles phase member held =>
    exact inv_active inv (Table.frame_refl _ _)
      (pass_owns (inv.owns _ _ here) phase rfl rfl (Or.inr ⟨_, rfl⟩))
  | drop here settles phase member free unmatched =>
    exact inv_active inv (Table.frame_refl _ _)
      (pass_owns (inv.owns _ _ here) phase rfl rfl (Or.inr ⟨_, rfl⟩))
  | fetch here phase =>
    exact inv_active inv (Table.frame_refl _ _)
      (pass_owns (inv.owns _ _ here) phase (fetched_call _ _) (fetched_taken _ _) (Or.inl (fetched_phase _ _)))
  | update here settles phase some_taken written =>
    have own := inv.owns _ _ here
    have updates := Table.update_updates own.distinct written
    exact inv_active inv updates.frame (update_owns own settles phase updates)
  | insert here places phase row fresh free =>
    exact inv_active inv (Table.put_frame free) (insert_owns (inv.owns _ _ here) places phase row fresh)
  | commit here returned =>
    apply inv_move inv (Table.commit_frame (inv.owns _ _ here).version_held) (by simp) (by simp)
    intro _ id held
    exact (Table.blocker_some.mp held).2 rfl
  | abort here =>
    apply inv_move inv (Table.abort_frame _ _) (by simp) (by simp)
    intro _ id held
    exact (Table.blocker_some.mp held).2 rfl

theorem run_inv {db db' : Database} {actions : List Action} (inv : Inv db)
    (h : run step db actions = some db') : Inv db' :=
  run_invariant (fun _ _ _ => step_inv) inv h

end BetSettlement.BetMaker
