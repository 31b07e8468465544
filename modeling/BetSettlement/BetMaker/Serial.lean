import BetSettlement.BetMaker.Scan
import BetSettlement.Machine.Ledger

/-!
# The transactions one after another

However the transactions interleave, those that commit leave the bets as a ledger that takes an entry
from each of them, in the order of the commits.
-/

namespace BetSettlement.BetMaker
open Python Machine

def Bet.isPending (bet : Bet) : Bool := bet.status == .pending

def Database.ledger (db : Database) (id : UUID) : Option Bet := db.table.rows.lookup id

/-- The bets that the transaction settles together, or the bet that it places. -/
def Transaction.entry (tx : Transaction) : Option (Entry UUID Bet) :=
  match tx.call.settlement, tx.phase with
  | some settlement, _ => some (.closes tx.taken (settlement.update tx.now))
  | none, .inserted bet => some (.opens bet.id bet)
  | none, _ => none

def Action.commits : Action → Option TxId
  | .commit t => some t
  | _ => none

def Database.entries (db : Database) (actions : List Action) : List (Entry UUID Bet) :=
  (actions.filterMap Action.commits).filterMap fun t => (db.slots t).tx.bind Transaction.entry

theorem closed_iff {db : Database} {id : UUID} : Closed Bet.isPending db.ledger id ↔ db.Decided id := by
  simp [Closed, Database.Decided, Database.ledger, Bet.isPending]

theorem commit_posts {db : Database} {t : TxId} {tx : Transaction} (own : Owns db.table t tx)
    (returned : tx.returned = true) : run (post Bet.isPending) db.ledger tx.entry.toList =
      some fun id => (db.table.commit t).rows.lookup id := by
  have rows : ∀ id, (db.table.commit t).rows.lookup id = (tx.version db.table.rows id).or (db.ledger id) := by
    intro id
    rw [Table.commit_rows, own.written, Database.ledger]
  unfold Transaction.entry
  cases settles : tx.call.settlement with
  | some settlement =>
    have allowed : ∀ id ∈ tx.taken, (db.ledger id).any fun bet =>
        bet.isPending && !(settlement.update tx.now bet).isPending := by
      intro id taken
      obtain ⟨bet, -, found, -, -, pending⟩ := own.pending id taken
      have decided := (Call.settlement_decides settles).1
      simp [Database.ledger, found, Bet.isPending, pending, Settlement.update, decided]
    simp only [Option.toList_some, run_cons, run_nil, post, if_pos allowed]
    refine ⟨_, rfl, funext fun id => ?_⟩
    rw [rows, returned_version own settles returned]
    by_cases taken : id ∈ tx.taken
    · obtain ⟨bet, -, found, -⟩ := own.pending id taken
      simp [taken, Database.ledger, found]
    · simp [taken]
  | none =>
    have nothing : tx.taken = [] := by
      by_contra some_taken
      obtain ⟨id, taken⟩ := List.exists_mem_of_ne_nil _ some_taken
      obtain ⟨_, settlement, -, settles', -⟩ := own.pending id taken
      cases settles.symm.trans settles'
    cases phase : tx.phase with
    | inserted bet =>
      obtain ⟨absent, -, amount, -, create⟩ := own.inserted bet phase
      have allowed : db.ledger bet.id = none ∧ bet.isPending = true :=
        ⟨absent, by simp [Bet.isPending, (Bet.create_ok create).2.2.1]⟩
      simp only [Option.toList_some, run_cons, run_nil, post, if_pos allowed]
      refine ⟨_, rfl, funext fun id => ?_⟩
      rw [rows, Transaction.version, phase]
      by_cases same : id = bet.id <;> simp [same]
    | _ =>
      refine run_nil.mpr (funext fun id => ?_)
      rw [rows]
      simp [Transaction.version, phase, nothing]

theorem entry_created {table : Table UUID Bet TxId} {t : TxId} {tx : Transaction} {id : UUID} {bet : Bet}
    (own : Owns table t tx) (h : tx.entry = some (.opens id bet)) :
    ∃ eventId amount now, Bet.create id eventId amount now = some bet := by
  unfold Transaction.entry at h
  split at h
  · cases h
  · rename_i row settles phase
    obtain ⟨rfl, rfl⟩ := Entry.opens.inj (Option.some.inj h)
    obtain ⟨-, -, amount, -, create⟩ := own.inserted row phase
    exact ⟨_, amount, tx.now, create⟩
  · cases h

theorem commits_some {action : Action} {t : TxId} : action.commits = some t ↔ action = .commit t := by
  cases action <;> simp [Action.commits]

theorem entries_kept {db : Database} {front : List Action} {action : Action} (none : action.commits = none) :
    db.entries (front ++ [action]) = db.entries front := by
  simp [Database.entries, List.filterMap_append, none]

theorem entries_commit {db : Database} {front : List Action} {t : TxId} :
    db.entries (front ++ [.commit t]) = db.entries front ++ ((db.slots t).tx.bind Transaction.entry).toList := by
  rw [Database.entries, List.filterMap_append, List.filterMap_append, Database.entries]
  cases entry : (db.slots t).tx.bind Transaction.entry <;> simp [Action.commits, entry]

/-- What the run from `start` to `db` amounts to. -/
structure Serial (start : Database) (actions : List Action) (db : Database) : Prop where
  committed : ∀ t, (∃ tx, db.slots t = .committed tx) ↔
    (∃ tx, start.slots t = .committed tx) ∨ t ∈ actions.filterMap Action.commits
  posted : run (post Bet.isPending) start.ledger (db.entries actions) = some db.ledger
  created : ∀ id bet, .opens id bet ∈ db.entries actions →
    ∃ eventId amount now, Bet.create id eventId amount now = some bet

theorem serial_step {start db db' : Database} {front : List Action} {action : Action} (inv : Inv db)
    (h : Serial start front db) (next : step db action = some db') : Serial start (front ++ [action]) db' := by
  have later := step_later inv next
  have before : db'.entries front = db.entries front := by
    refine List.filterMap_congr fun t member => ?_
    obtain ⟨tx, here⟩ := (h.committed t).mpr (Or.inr member)
    rw [later.committed here, here]
  have committed : ∀ t, (∃ tx, db'.slots t = .committed tx) ↔
      (∃ tx, db.slots t = .committed tx) ∨ action.commits = some t := by
    intro t
    constructor
    · rintro ⟨tx, here⟩
      rcases committed_step next here with same | ⟨rfl, -⟩
      · exact Or.inl ⟨tx, same⟩
      · exact Or.inr rfl
    · rintro (⟨tx, here⟩ | commits)
      · exact ⟨tx, later.committed here⟩
      · obtain rfl := commits_some.mp commits
        cases step_moves next with
        | @commit _ tx => exact ⟨tx, by simp⟩
  have listed : ∀ t, t ∈ (front ++ [action]).filterMap Action.commits ↔
      t ∈ front.filterMap Action.commits ∨ action.commits = some t := by
    intro t
    simp [List.filterMap_append, List.mem_filterMap]
  have extended : ∃ entries, db'.entries (front ++ [action]) = db.entries front ++ entries ∧
      run (post Bet.isPending) db.ledger entries = some db'.ledger ∧
      ∀ id bet, .opens id bet ∈ entries → ∃ eventId amount now, Bet.create id eventId amount now = some bet := by
    cases commits : action.commits with
    | none =>
      refine ⟨[], by rw [entries_kept commits, before, List.append_nil], run_nil.mpr (funext fun id => ?_), by simp⟩
      cases row_step inv next id with
      | kept same => exact same.symm
      | settled ends | placed ends => simp [ends, Action.commits] at commits
    | some t =>
      obtain rfl := commits_some.mp commits
      cases step_moves next with
      | @commit _ tx here returned =>
        have own := inv.owns t tx here
        have slot : (({ db.setSlot t (.committed tx) with table := db.table.commit t } : Database).slots t).tx =
            some tx := by simp [Slot.tx]
        refine ⟨tx.entry.toList, by rw [entries_commit, before, slot, Option.bind_some], commit_posts own returned,
          fun id bet opened => ?_⟩
        exact entry_created own (Option.mem_toList.mp opened)
  obtain ⟨entries, same, posted, created⟩ := extended
  refine ⟨fun t => by rw [committed, h.committed, listed, or_assoc], ?_, ?_⟩
  · rw [same]
    exact run_append.mpr ⟨db.ledger, h.posted, posted⟩
  · intro id bet opened
    rw [same] at opened
    exact (List.mem_append.mp opened).elim (h.created id bet) (created id bet)

theorem run_serial {start db : Database} {actions : List Action} (inv : Inv start)
    (h : run step start actions = some db) : Serial start actions db := by
  have nothing : Serial start [] start := ⟨by simp, by simp [Database.entries, run_nil], by simp [Database.entries]⟩
  have keep : ∀ front before action after, Inv before ∧ Serial start front before → step before action = some after →
      Inv after ∧ Serial start (front ++ [action]) after :=
    fun _ _ _ _ held next => ⟨step_inv held.1 next, serial_step held.1 held.2 next⟩
  exact (run_history (P := fun front db => Inv db ∧ Serial start front db) keep ⟨inv, nothing⟩ h).2

end BetSettlement.BetMaker
