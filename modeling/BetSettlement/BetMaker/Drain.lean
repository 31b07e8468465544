import BetSettlement.BetMaker.Scan

/-!
# What a settlement leaves PENDING

A settlement that commits leaves a bet of its event PENDING only if another transaction held the
bet's row when the SELECT reached it, and did not commit.
-/

namespace BetSettlement.BetMaker
open Python Machine

/-- `t` has not issued its SELECT. -/
def Database.Unread (db : Database) (t : TxId) : Prop :=
  db.slots t = .unused ∨ ∃ tx, db.slots t = .active tx ∧ tx.phase = .opened

def Database.Unended (db : Database) (t : TxId) : Prop :=
  db.slots t = .unused ∨ ∃ tx, db.slots t = .active tx

theorem Database.Later.unended {db db' : Database} (later : db.Later db') {t : TxId}
    (h : db'.Unended t) : db.Unended t := by
  rcases h with unused | ⟨tx, here⟩
  · have grown := later.slots t
    cases before : db.slots t with
    | unused => exact Or.inl before
    | active tx => exact Or.inr ⟨tx, before⟩
    | committed tx | aborted tx =>
      rw [before] at grown
      exact absurd (unused.symm.trans grown) (by simp)
  · exact later.ended here

/-- What the transactions that were unread in `db` have made of it since. -/
structure Since (db db' : Database) : Prop where
  found : ∀ t tx settlement id bet, db.Unread t → (db'.slots t).tx = some tx →
    tx.call.settlement = some settlement → db.table.rows.lookup id = some bet →
    bet.eventId = settlement.eventId → tx.phase = .opened ∨ id ∈ tx.snapshot ∨ db'.Decided id
  skipped : ∀ t tx id u, db.Unread t → (db'.slots t).tx = some tx → (id, u) ∈ tx.skipped → db.Unended u

theorem unread_opened {db : Database} {t : TxId} {tx : Transaction} (unread : db.Unread t)
    (found : (db.slots t).tx = some tx) : tx.phase = .opened := by
  rcases unread with unused | ⟨tx', here, opened⟩
  · rw [unused] at found
    cases found
  · rw [here] at found
    exact Option.some.inj found ▸ opened

theorem since_refl {db : Database} (accounts : Accounts db) : Since db db where
  found _ _ _ _ _ unread here _ _ _ := Or.inl (unread_opened unread here)
  skipped t tx id u unread here passed := by
    have empty := ((accounts.scanned t tx here).opened (unread_opened unread here)).2
    simp [empty] at passed

/-- The SELECT finds every bet of the event that is still PENDING. -/
theorem select_finds {db : Database} {t : TxId} {tx : Transaction} {settlement : Settlement} {id : UUID}
    {bet : Bet} (own : Owns db.table t tx) (phase : tx.phase = .opened)
    (row : db.table.rows.lookup id = some bet) (event : bet.eventId = settlement.eventId) :
    id ∈ db.table.select t (getPendingLocked settlement.eventId) ∨ db.Decided id := by
  by_cases pending : bet.status = .pending
  · exact Or.inl ((own.mem_select phase).mpr ⟨bet, row, event, pending⟩)
  · exact Or.inr ⟨bet, row, pending⟩

theorem found_step {db db' : Database} {action : Action} (inv : Inv db) (h : step db action = some db')
    {t : TxId} {tx' : Transaction} {settlement : Settlement} {id : UUID} {bet : Bet}
    (here' : (db'.slots t).tx = some tx') (settles : tx'.call.settlement = some settlement)
    (row : db.table.rows.lookup id = some bet) (event : bet.eventId = settlement.eventId)
    (before : ∀ tx, (db.slots t).tx = some tx → tx.phase = .opened ∨ id ∈ tx.snapshot ∨ db.Decided id) :
    tx'.phase = .opened ∨ id ∈ tx'.snapshot ∨ db.Decided id := by
  by_cases other : t = action.tx
  · subst other
    cases step_moves h with
    | begin unused =>
      obtain rfl := Option.some.inj (setSlot_tx here')
      exact Or.inl rfl
    | select here settles' phase =>
      obtain rfl := Option.some.inj (setSlot_tx here')
      obtain rfl := Option.some.inj (settles.symm.trans settles')
      exact Or.inr (select_finds (inv.owns _ _ here) phase row event)
    | insert here places phase create fresh free =>
      obtain rfl := Option.some.inj (setSlot_tx here')
      rw [places] at settles
      cases settles
    | take here settles' phase member free matched | drop here settles' phase member free unmatched
    | skip here settles' phase member held | update here settles' phase some_taken written =>
      obtain rfl := Option.some.inj (setSlot_tx here')
      have found := before _ (congrArg Slot.tx here)
      simp only [phase, reduceCtorEq, false_or] at found
      exact Or.inr found
    | fetch here phase =>
      obtain rfl := Option.some.inj (setSlot_tx here')
      have found := before _ (congrArg Slot.tx here)
      simp only [phase, reduceCtorEq, false_or] at found
      simpa using found
    | commit here | abort here =>
      obtain rfl := Option.some.inj (setSlot_tx here')
      exact before _ (congrArg Slot.tx here)
  · exact before tx' (step_other_slot h other ▸ here')

theorem skipped_step {db db' : Database} {action : Action} (inv : Inv db) (h : step db action = some db')
    {t u : TxId} {tx' : Transaction} {id : UUID} (here' : (db'.slots t).tx = some tx')
    (passed : (id, u) ∈ tx'.skipped) :
    (∃ tx, (db.slots t).tx = some tx ∧ (id, u) ∈ tx.skipped) ∨ db.Unended u := by
  by_cases other : t = action.tx
  · subst other
    cases step_moves h with
    | begin unused =>
      obtain rfl := Option.some.inj (setSlot_tx here')
      cases passed
    | skip here settles phase member held =>
      obtain rfl := Option.some.inj (setSlot_tx here')
      rcases List.mem_append.mp passed with before | now
      · exact Or.inl ⟨_, congrArg Slot.tx here, before⟩
      · obtain ⟨rfl, rfl⟩ := Prod.mk.inj (List.mem_singleton.mp now)
        exact Or.inr (Or.inr (inv.holder _ _ (Table.blocker_some.mp held).1))
    | fetch here phase =>
      obtain rfl := Option.some.inj (setSlot_tx here')
      exact Or.inl ⟨_, congrArg Slot.tx here, fetched_skipped _ _ ▸ passed⟩
    | select here | take here | drop here | update here | insert here | commit here | abort here =>
      obtain rfl := Option.some.inj (setSlot_tx here')
      exact Or.inl ⟨_, congrArg Slot.tx here, passed⟩
  · exact Or.inl ⟨tx', step_other_slot h other ▸ here', passed⟩

theorem since_step {db middle db' : Database} {action : Action} (later : db.Later middle) (inv : Inv middle)
    (since : Since db middle) (h : step middle action = some db') : Since db db' where
  found t tx settlement id bet unread here settles row event := by
    obtain ⟨bet', row', grown⟩ := later.rows id bet row
    have next := step_later inv h
    have before : ∀ tx₀, (middle.slots t).tx = some tx₀ →
        tx₀.phase = .opened ∨ id ∈ tx₀.snapshot ∨ middle.Decided id := by
      intro tx₀ here₀
      obtain ⟨tx', here', grows⟩ := (next.slots t).tx here₀
      obtain rfl := Option.some.inj (here.symm.trans here')
      exact since.found t tx₀ settlement id bet unread here₀ (grows.call ▸ settles) row event
    rcases found_step inv h here settles row' (grown.eventId.trans event) before with opened | listed | decided
    · exact Or.inl opened
    · exact Or.inr (Or.inl listed)
    · exact Or.inr (Or.inr (next.decided decided))
  skipped t tx id u unread here passed := by
    rcases skipped_step inv h here passed with ⟨tx₀, here₀, passed₀⟩ | unended
    · exact since.skipped t tx₀ id u unread here₀ passed₀
    · exact later.unended unended

theorem run_since {db db' : Database} {actions : List Action} (inv : Inv db) (accounts : Accounts db)
    (h : run step db actions = some db') : Since db db' := by
  have held := run_invariant (P := fun later => db.Later later ∧ Inv later ∧ Since db later)
    (fun _ _ _ held next => ⟨held.1.trans (step_later held.2.1 next), step_inv held.2.1 next,
      since_step held.1 held.2.1 held.2.2 next⟩) ⟨.refl db, inv, since_refl accounts⟩ h
  exact held.2.2

/-- The bets of the event that were committed before the SELECT of a committed settlement. -/
theorem committed_settles {db db' : Database} (since : Since db db') (accounts : Accounts db') {t : TxId}
    {tx : Transaction} {settlement : Settlement} {id : UUID} {bet : Bet} (unread : db.Unread t)
    (here : db'.slots t = .committed tx) (settles : tx.call.settlement = some settlement)
    (row : db.table.rows.lookup id = some bet) (event : bet.eventId = settlement.eventId) :
    db'.Decided id ∨ ∃ u ux, (id, u) ∈ tx.skipped ∧ u ≠ t ∧ id ∈ ux.taken ∧ db.Unended u ∧
      (db'.slots u = .active ux ∨ db'.slots u = .aborted ux) := by
  have found := congrArg Slot.tx here
  rcases since.found t tx settlement id bet unread found settles row event with opened | listed | decided
  · have returned := (accounts.returned t tx here).1
    simp [Transaction.returned, opened] at returned
  · rcases committed_drains accounts here listed with decided | ⟨u, ux, passed, other, taken, ended⟩
    · exact Or.inl decided
    · exact Or.inr ⟨u, ux, passed, other, taken, since.skipped t tx id u unread found passed, ended⟩
  · exact Or.inl decided

end BetSettlement.BetMaker
