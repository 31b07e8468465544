import BetSettlement.BetMaker.Serial

/-! Every bet settles at most once, and the results of the calls account for all that did. -/

namespace BetSettlement.BetMaker
open Python Machine

structure WellFormed (id : UUID) (bet : Bet) : Prop where
  key : bet.id = id
  settledAt : bet.status = .pending ↔ bet.settledAt = none
  settledVia : bet.status = .pending ↔ bet.settledVia = none
  cancelled : bet.status = .cancelled → bet.settledVia = some .reconciler

theorem placed_wellFormed {id eventId : UUID} {amount : Decimal} {now : Instant} {bet : Bet}
    (h : Bet.create id eventId amount now = some bet) : WellFormed id bet := by
  obtain ⟨key, -, pending, settledAt, settledVia⟩ := Bet.create_ok h
  exact ⟨key, by simp [pending, settledAt], by simp [pending, settledVia], by simp [pending]⟩

theorem settled_wellFormed {id : UUID} {bet : Bet} {call : Call} {settlement : Settlement} (now : Instant)
    (h : WellFormed id bet) (settles : call.settlement = some settlement) :
    WellFormed id (settlement.update now bet) := by
  obtain ⟨decided, -, cancelled⟩ := Call.settlement_decides settles
  exact ⟨h.key, by simp [Settlement.update, decided], by simp [Settlement.update, decided],
    fun status => congrArg some (cancelled status)⟩

/-- The ids in the result of a call that returned normally. -/
def Database.returnedIds (db : Database) (t : TxId) : List UUID :=
  match db.slots t with
  | .committed tx =>
    ((tx.settleResult.map SettleResult.settledBetIds).or
      (tx.cancelResult.map CancelResult.cancelledBetIds)).getD []
  | _ => []

theorem returnedIds_settles {tx : Transaction} {settlement : Settlement}
    (settles : tx.call.settlement = some settlement) :
    ((tx.settleResult.map SettleResult.settledBetIds).or
      (tx.cancelResult.map CancelResult.cancelledBetIds)).getD [] = tx.taken := by
  cases call : tx.call with
  | settleBetsForEvent eventId state via => simp [Transaction.settleResult, call]
  | cancelBetsForEvent eventId => simp [Transaction.settleResult, Transaction.cancelResult, call]
  | placeBet eventId amount =>
    rw [call] at settles
    cases settles

theorem mem_returnedIds {db : Database} (accounts : Accounts db) {t : TxId} {id : UUID} :
    id ∈ db.returnedIds t ↔ ∃ tx, db.slots t = .committed tx ∧ id ∈ tx.taken := by
  unfold Database.returnedIds
  constructor
  · intro member
    split at member
    · rename_i tx here
      refine ⟨tx, here, ?_⟩
      cases settles : tx.call.settlement with
      | some settlement => exact returnedIds_settles settles ▸ member
      | none => cases call : tx.call <;> simp_all [Transaction.settleResult, Transaction.cancelResult, Call.settlement]
    · cases member
  · rintro ⟨tx, here, taken⟩
    obtain ⟨-, settlement, -, settles, -⟩ := accounts.flipped t tx id here taken
    simp only [here]
    exact returnedIds_settles settles ▸ taken

/-- The results agree with the table. -/
structure Tallied (db : Database) : Prop where
  wellFormed : ∀ id bet, db.table.rows.lookup id = some bet → WellFormed id bet
  nodup : ∀ t, (db.returnedIds t).Nodup
  disjoint : ∀ t u, t ≠ u → List.Disjoint (db.returnedIds t) (db.returnedIds u)
  union : ∀ id, db.Decided id ↔ ∃ t, id ∈ db.returnedIds t
  settled : ∀ t tx result, db.slots t = .committed tx → tx.settleResult = some result →
    result.settledCount = result.settledBetIds.length ∧ ∀ id ∈ result.settledBetIds,
      ∃ bet, db.table.rows.lookup id = some bet ∧ bet.eventId = result.eventId ∧
        bet.status = terminalToStatus result.terminalState ∧ bet.settledVia = some result.settledVia
  cancelled : ∀ t tx result, db.slots t = .committed tx → tx.cancelResult = some result →
    result.cancelledCount = result.cancelledBetIds.length ∧ ∀ id ∈ result.cancelledBetIds,
      ∃ bet, db.table.rows.lookup id = some bet ∧ bet.eventId = result.eventId ∧
        bet.status = .cancelled ∧ bet.settledVia = some .reconciler

/-! ### The results as entries of the ledger -/

theorem entry_taken {tx : Transaction} {entry : Entry UUID Bet} (h : tx.entry = some entry) {id : UUID}
    (member : id ∈ entry.closed) : id ∈ tx.taken := by
  unfold Transaction.entry at h
  split at h
  · obtain rfl := Option.some.inj h
    exact member
  · obtain rfl := Option.some.inj h
    cases member
  · cases h

theorem entry_update {tx : Transaction} {keys : List UUID} {change : Bet → Bet}
    (h : tx.entry = some (.closes keys change)) :
    ∃ settlement, tx.call.settlement = some settlement ∧ change = settlement.update tx.now := by
  unfold Transaction.entry at h
  split at h
  · rename_i settlement settles
    exact ⟨settlement, settles, (Entry.closes.inj (Option.some.inj h)).2.symm⟩
  · cases h
  · cases h

/-- The entry of a call closes the bets in its result. -/
theorem returned_entry {rows : AList fun _ : UUID => Bet} {db : Database} {actions : List Action}
    (accounts : Accounts db) (serial : Serial (Database.start rows) actions db) {t : TxId} {id : UUID}
    (member : id ∈ db.returnedIds t) : t ∈ actions.filterMap Action.commits ∧
      ∃ entry, (db.slots t).tx.bind Transaction.entry = some entry ∧ id ∈ entry.closed := by
  obtain ⟨tx, here, taken⟩ := (mem_returnedIds accounts).mp member
  obtain ⟨-, settlement, -, settles, -⟩ := accounts.flipped t tx id here taken
  refine ⟨?_, .closes tx.taken (settlement.update tx.now), by simp [here, Slot.tx, Transaction.entry, settles], taken⟩
  rcases (serial.committed t).mp ⟨tx, here⟩ with ⟨_, before⟩ | listed
  · cases before
  · exact listed

theorem entry_returned {rows : AList fun _ : UUID => Bet} {db : Database} {actions : List Action}
    (accounts : Accounts db) (serial : Serial (Database.start rows) actions db) {entry : Entry UUID Bet} {id : UUID}
    (listed : entry ∈ db.entries actions) (member : id ∈ entry.closed) : ∃ t, id ∈ db.returnedIds t := by
  obtain ⟨t, committed, enters⟩ := List.mem_filterMap.mp listed
  obtain ⟨tx, here⟩ := (serial.committed t).mpr (Or.inr committed)
  rw [here, Slot.tx, Option.bind_some] at enters
  exact ⟨t, (mem_returnedIds accounts).mpr ⟨tx, here, entry_taken enters member⟩⟩

theorem returned_disjoint {rows : AList fun _ : UUID => Bet} {db : Database} {actions : List Action}
    (accounts : Accounts db) (serial : Serial (Database.start rows) actions db) {t u : TxId} (different : t ≠ u) :
    List.Disjoint (db.returnedIds t) (db.returnedIds u) := by
  intro id first last
  obtain ⟨tListed, entry, tEnters, tClosed⟩ := returned_entry accounts serial first
  obtain ⟨uListed, later, uEnters, uClosed⟩ := returned_entry accounts serial last
  have apart := List.pairwise_filterMap.mp (run_disjoint serial.posted)
  have symmetric : Std.Symm fun t u => ∀ entry, (db.slots t).tx.bind Transaction.entry = some entry →
      ∀ later, (db.slots u).tx.bind Transaction.entry = some later → List.Disjoint entry.closed later.closed :=
    ⟨fun t u apart entry enters later enters' => (apart later enters' entry enters).symm⟩
  exact apart.forall tListed uListed different entry tEnters later uEnters tClosed uClosed

theorem run_wellFormed {db : Database} {actions : List Action} (serial : Serial (Database.start ∅) actions db)
    (id : UUID) (bet : Bet) (found : db.table.rows.lookup id = some bet) : WellFormed id bet := by
  refine run_items ?_ ?_ (fun id bet found => ?_) serial.posted id bet found
  · intro id bet opened
    obtain ⟨eventId, amount, now, create⟩ := serial.created id bet opened
    exact placed_wellFormed create
  · intro keys change listed id bet before
    obtain ⟨t, -, enters⟩ := List.mem_filterMap.mp listed
    obtain ⟨tx, -, entry⟩ := Option.bind_eq_some_iff.mp enters
    obtain ⟨settlement, settles, rfl⟩ := entry_update entry
    exact settled_wellFormed tx.now before settles
  · cases found

theorem tallied_of_serial {db : Database} {actions : List Action} (accounts : Accounts db)
    (serial : Serial (Database.start ∅) actions db) : Tallied db where
  wellFormed := run_wellFormed serial
  nodup t := by
    unfold Database.returnedIds
    split
    · rename_i tx here
      cases call : tx.call <;>
        simp [Transaction.settleResult, Transaction.cancelResult, call, (accounts.returned t tx here).2]
    · exact List.nodup_nil
  disjoint t u different := returned_disjoint accounts serial different
  union id := by
    rw [← closed_iff, run_closes serial.posted]
    constructor
    · rintro (⟨bet, found, -⟩ | ⟨entry, listed, member⟩)
      · cases found
      · exact entry_returned accounts serial listed member
    · rintro ⟨t, member⟩
      obtain ⟨committed, entry, enters, closed⟩ := returned_entry accounts serial member
      exact Or.inr ⟨entry, List.mem_filterMap.mpr ⟨t, committed, enters⟩, closed⟩
  settled t tx result here returned := by
    unfold Transaction.settleResult at returned
    split at returned
    · rename_i eventId state via call
      obtain rfl := Option.some.inj returned
      refine ⟨rfl, fun id taken => ?_⟩
      obtain ⟨bet, settlement, found, settles, event, status, settledVia⟩ := accounts.flipped t tx id here taken
      rw [call] at settles
      obtain rfl := Option.some.inj settles
      exact ⟨bet, found, event, status, settledVia⟩
    · cases returned
  cancelled t tx result here returned := by
    unfold Transaction.cancelResult at returned
    split at returned
    · rename_i eventId call
      obtain rfl := Option.some.inj returned
      refine ⟨rfl, fun id taken => ?_⟩
      obtain ⟨bet, settlement, found, settles, event, status, settledVia⟩ := accounts.flipped t tx id here taken
      rw [call] at settles
      obtain rfl := Option.some.inj settles
      exact ⟨bet, found, event, status, settledVia⟩
    · cases returned

/-- However the transactions interleave and whichever abort, a bet leaves PENDING at most once, stays as it
was settled, and is in the result of exactly one call. -/
theorem settle_exactly_once {db : Database} {actions : List Action}
    (reached : run step (Database.start ∅) actions = some db) :
    Tallied db ∧ ∀ more db', run step db more = some db' → ∀ id bet, db.table.rows.lookup id = some bet →
      bet.status ≠ .pending → db'.table.rows.lookup id = some bet := by
  obtain ⟨inv, accounts⟩ := run_accounts (start_inv ∅) (start_accounts ∅) reached
  refine ⟨tallied_of_serial accounts (run_serial (start_inv ∅) reached), fun more db' next id bet found decided => ?_⟩
  exact run_closed (run_serial inv next).posted found (by simpa [Bet.isPending] using decided)

/-- Two bets on event 7: a settle takes both, a cancel skips one and finds the other settled. -/
def settleOnce : List Action :=
  [.begin 0 (.placeBet 7 ⟨false, 10, 0⟩) 0 1, .insert 0 100, .commit 0,
   .begin 1 (.placeBet 7 ⟨false, 20, 0⟩) 0 2, .insert 1 101, .commit 1,
   .begin 2 (.settleBetsForEvent 7 .finishedWin .consumer) 0 3, .select 2,
   .begin 3 (.cancelBetsForEvent 7) 0 4, .select 3,
   .visit 2 100, .visit 3 100, .visit 2 101, .fetch 2 5, .update 2, .commit 2, .visit 3 101, .fetch 3 6,
   .commit 3]

theorem settle_exactly_once_settleOnce :
    ∃ db, run step (Database.start ∅) settleOnce = some db ∧ Tallied db ∧
      db.returnedIds 2 = [100, 101] ∧ db.returnedIds 3 = [] := by
  obtain ⟨db, reached⟩ := Option.isSome_iff_exists.mp
    (show (run step (Database.start ∅) settleOnce).isSome = true by decide)
  have results : (run step (Database.start ∅) settleOnce).map (fun db => (db.returnedIds 2, db.returnedIds 3)) =
      some ([100, 101], []) := by decide
  rw [reached] at results
  obtain ⟨two, three⟩ := Prod.mk.inj (Option.some.inj results)
  exact ⟨db, reached, (settle_exactly_once reached).1, two, three⟩

end BetSettlement.BetMaker
