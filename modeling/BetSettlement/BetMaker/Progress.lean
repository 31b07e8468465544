import BetSettlement.BetMaker.Locks

/-!
# What never goes back

A row keeps its event, and once it is not PENDING it keeps everything. A transaction keeps what it
has taken and what it has skipped, and once it has ended it stays as it ended.
-/

namespace BetSettlement.BetMaker
open Python Machine

inductive RowStep (db : Database) (action : Action) (id : UUID) (after : Option Bet) : Prop where
  | kept (same : after = db.table.rows.lookup id)
  | settled {t tx settlement bet} (commits : action = .commit t) (here : db.slots t = .active tx)
      (settles : tx.call.settlement = some settlement) (member : id ∈ tx.taken)
      (before : db.table.rows.lookup id = some bet) (event : bet.eventId = settlement.eventId)
      (pending : bet.status = .pending) (row : after = some (settlement.update tx.now bet))
  | placed {t tx amount bet} (commits : action = .commit t) (here : db.slots t = .active tx)
      (phase : tx.phase = .inserted bet) (call : tx.call = .placeBet bet.eventId amount)
      (create : Bet.create id bet.eventId amount tx.now = some bet)
      (absent : db.table.rows.lookup id = none) (row : after = some bet)

theorem commit_rowStep {db : Database} {t : TxId} {tx : Transaction} (here : db.slots t = .active tx)
    (own : Owns db.table t tx) (id : UUID) :
    RowStep db (.commit t) id ((db.table.commit t).rows.lookup id) := by
  cases version : tx.version db.table.rows id with
  | none =>
    apply RowStep.kept
    rw [Table.commit_rows, own.written, version, Option.none_or]
  | some after =>
    have row : (db.table.commit t).rows.lookup id = some after := by
      rw [Table.commit_rows, own.written, version, Option.some_or]
    rw [row]
    unfold Transaction.version at version
    split at version
    · rename_i bet phase
      split at version
      · rename_i same
        obtain rfl := Option.some.inj version
        obtain ⟨absent, -, amount, call, create⟩ := own.inserted bet phase
        subst same
        exact .placed rfl here phase call create absent rfl
      · cases version
    · split at version
      · rename_i member
        obtain ⟨bet, settlement, before, settles, event, pending⟩ := own.pending id member
        rw [settles, before] at version
        obtain rfl := Option.some.inj version
        exact .settled rfl here settles member before event pending rfl
      · cases version
    · cases version

theorem row_step {db db' : Database} {action : Action} (inv : Inv db) (h : step db action = some db')
    (id : UUID) : RowStep db action id (db'.table.rows.lookup id) := by
  cases step_moves h with
  | update here settles phase some_taken written =>
    apply RowStep.kept
    rw [(Table.update_updates (inv.owns _ _ here).distinct written).rows]
  | commit here returned => exact commit_rowStep here (inv.owns _ _ here) id
  | _ => exact .kept rfl

/-- The SELECT is complete, or there was none. -/
def Transaction.Read (tx : Transaction) : Prop := tx.phase ≠ .opened ∧ ∀ todo, tx.phase ≠ .selecting todo

structure Transaction.Grows (tx tx' : Transaction) : Prop where
  call : tx'.call = tx.call
  now : tx'.now = tx.now
  taken : ∀ id ∈ tx.taken, id ∈ tx'.taken
  skipped : ∀ pass ∈ tx.skipped, pass ∈ tx'.skipped
  snapshot : tx.phase ≠ .opened → tx'.phase ≠ .opened ∧ tx'.snapshot = tx.snapshot
  read : tx.Read → tx'.Read ∧ tx'.skipped = tx.skipped

theorem Transaction.Grows.refl (tx : Transaction) : tx.Grows tx :=
  ⟨rfl, rfl, fun _ => id, fun _ => id, fun started => ⟨started, rfl⟩, fun read => ⟨read, rfl⟩⟩

theorem Transaction.Grows.trans {a b c : Transaction} (first : a.Grows b) (last : b.Grows c) : a.Grows c where
  call := last.call.trans first.call
  now := last.now.trans first.now
  taken id member := last.taken id (first.taken id member)
  skipped pass member := last.skipped pass (first.skipped pass member)
  snapshot started := by
    obtain ⟨started', same⟩ := first.snapshot started
    obtain ⟨started'', same'⟩ := last.snapshot started'
    exact ⟨started'', same'.trans same⟩
  read read := by
    obtain ⟨read', same⟩ := first.read read
    obtain ⟨read'', same'⟩ := last.read read'
    exact ⟨read'', same'.trans same⟩

def Slot.Later : Slot → Slot → Prop
  | .unused, _ => True
  | .active tx, slot => ∃ tx', slot.tx = some tx' ∧ tx.Grows tx'
  | .committed tx, slot => slot = .committed tx
  | .aborted tx, slot => slot = .aborted tx

theorem Slot.Later.refl (slot : Slot) : slot.Later slot := by
  cases slot with
  | unused => trivial
  | active tx => exact ⟨tx, rfl, .refl tx⟩
  | committed tx => rfl
  | aborted tx => rfl

theorem Slot.Later.tx {a b : Slot} (later : a.Later b) {tx : Transaction} (found : a.tx = some tx) :
    ∃ tx', b.tx = some tx' ∧ tx.Grows tx' := by
  cases a with
  | unused => cases found
  | active tx₀ =>
    obtain rfl := Option.some.inj found
    exact later
  | committed tx₀ =>
    obtain rfl := Option.some.inj found
    obtain rfl : b = .committed tx₀ := later
    exact ⟨tx₀, rfl, .refl tx₀⟩
  | aborted tx₀ =>
    obtain rfl := Option.some.inj found
    obtain rfl : b = .aborted tx₀ := later
    exact ⟨tx₀, rfl, .refl tx₀⟩

theorem Slot.Later.trans {a b c : Slot} (first : a.Later b) (last : b.Later c) : a.Later c := by
  cases a with
  | unused => trivial
  | active tx =>
    obtain ⟨tx', found, grows⟩ := first
    obtain ⟨tx'', found', grows'⟩ := last.tx found
    exact ⟨tx'', found', grows.trans grows'⟩
  | committed tx =>
    obtain rfl : b = .committed tx := first
    exact last
  | aborted tx =>
    obtain rfl : b = .aborted tx := first
    exact last

theorem Slot.Later.used {a b : Slot} (later : a.Later b) (used : a ≠ .unused) : b ≠ .unused := by
  rintro rfl
  cases a with
  | unused => exact used rfl
  | active tx =>
    obtain ⟨tx', found, -⟩ := later
    cases found
  | committed tx | aborted tx => cases later

structure Bet.Later (bet bet' : Bet) : Prop where
  id : bet'.id = bet.id
  eventId : bet'.eventId = bet.eventId
  amount : bet'.amount = bet.amount
  createdAt : bet'.createdAt = bet.createdAt
  decided : bet.status ≠ .pending → bet' = bet

theorem Bet.Later.refl (bet : Bet) : bet.Later bet := ⟨rfl, rfl, rfl, rfl, fun _ => rfl⟩

theorem Bet.Later.trans {a b c : Bet} (first : a.Later b) (last : b.Later c) : a.Later c where
  id := last.id.trans first.id
  eventId := last.eventId.trans first.eventId
  amount := last.amount.trans first.amount
  createdAt := last.createdAt.trans first.createdAt
  decided done := by
    obtain rfl := first.decided done
    exact last.decided done

structure Database.Later (db db' : Database) : Prop where
  rows : ∀ id bet, db.table.rows.lookup id = some bet →
    ∃ bet', db'.table.rows.lookup id = some bet' ∧ bet.Later bet'
  slots : ∀ t, (db.slots t).Later (db'.slots t)

theorem Database.Later.refl (db : Database) : db.Later db :=
  ⟨fun _ bet found => ⟨bet, found, .refl bet⟩, fun _ => .refl _⟩

theorem Database.Later.trans {a b c : Database} (first : a.Later b) (last : b.Later c) : a.Later c where
  rows id bet found := by
    obtain ⟨bet', found', later⟩ := first.rows id bet found
    obtain ⟨bet'', found'', later'⟩ := last.rows id bet' found'
    exact ⟨bet'', found'', later.trans later'⟩
  slots t := (first.slots t).trans (last.slots t)

theorem row_later {db db' : Database} {action : Action} (inv : Inv db) (h : step db action = some db')
    (id : UUID) (bet : Bet) (found : db.table.rows.lookup id = some bet) :
    ∃ bet', db'.table.rows.lookup id = some bet' ∧ bet.Later bet' := by
  cases row_step inv h id with
  | kept same => exact ⟨bet, same.trans found, .refl bet⟩
  | settled commits here settles member before event pending row =>
    rw [before] at found
    obtain rfl := Option.some.inj found
    exact ⟨_, row, rfl, rfl, rfl, rfl, fun decided => absurd pending decided⟩
  | placed commits here phase call create absent row =>
    rw [absent] at found
    cases found

theorem setSlot_later {db : Database} {t : TxId} {slot : Slot} {tx tx' : Transaction}
    (here : db.slots t = .active tx) (after : slot.tx = some tx') (grows : tx.Grows tx') :
    (db.slots t).Later ((db.setSlot t slot).slots t) := by
  rw [here, setSlot_slots, if_pos rfl]
  exact ⟨tx', after, grows⟩

/-- An open transaction changes only its own slot, and only by growing. -/
theorem slot_later {db db' : Database} {action : Action} (h : step db action = some db') (u : TxId) :
    (db.slots u).Later (db'.slots u) := by
  by_cases other : u = action.tx
  · subst other
    cases step_moves h with
    | begin unused => simp [Action.tx, unused, Slot.Later]
    | select here settles phase =>
      exact setSlot_later here rfl ⟨rfl, rfl, fun _ => id, fun _ => id, fun started => absurd phase started,
        fun read => absurd phase read.1⟩
    | take here settles phase member free matched =>
      exact setSlot_later here rfl ⟨rfl, rfl, fun _ => List.mem_append_left _, fun _ => id,
        fun _ => ⟨by simp [Transaction.take], rfl⟩, fun read => absurd phase (read.2 _)⟩
    | skip here settles phase member held =>
      exact setSlot_later here rfl ⟨rfl, rfl, fun _ => id, fun _ => List.mem_append_left _,
        fun _ => ⟨by simp [Transaction.skip], rfl⟩, fun read => absurd phase (read.2 _)⟩
    | drop here settles phase member free unmatched =>
      exact setSlot_later here rfl ⟨rfl, rfl, fun _ => id, fun _ => id,
        fun _ => ⟨by simp [Transaction.drop], rfl⟩, fun read => absurd phase (read.2 _)⟩
    | fetch here phase =>
      exact setSlot_later here rfl ⟨fetched_call _ _, fetched_now _ _, by simp, by simp,
        fun _ => ⟨by simp, fetched_snapshot _ _⟩, fun read => absurd phase (read.2 _)⟩
    | update here settles phase some_taken written | insert here places phase row fresh free =>
      exact setSlot_later here rfl ⟨rfl, rfl, fun _ => id, fun _ => id, fun _ => ⟨by simp, rfl⟩,
        fun _ => ⟨⟨by simp, by simp⟩, rfl⟩⟩
    | commit here | abort here => exact setSlot_later here rfl (.refl _)
  · rw [step_other_slot h other]
    exact .refl _

theorem step_later {db db' : Database} {action : Action} (inv : Inv db) (h : step db action = some db') :
    db.Later db' :=
  ⟨row_later inv h, slot_later h⟩

theorem run_later {db db' : Database} {actions : List Action} (inv : Inv db)
    (h : run step db actions = some db') : db.Later db' :=
  run_relates (fun _ _ _ => step_inv) .refl (fun _ _ _ => .trans) (fun _ _ _ => step_later) inv h

/-- The bet exists and is no longer PENDING. -/
def Database.Decided (db : Database) (id : UUID) : Prop :=
  ∃ bet, db.table.rows.lookup id = some bet ∧ bet.status ≠ .pending

theorem Database.Later.decided {db db' : Database} {id : UUID} (later : db.Later db') (h : db.Decided id) :
    db'.Decided id := by
  obtain ⟨bet, found, done⟩ := h
  obtain ⟨bet', found', grown⟩ := later.rows id bet found
  obtain rfl := grown.decided done
  exact ⟨bet', found', done⟩

theorem Database.Later.ended {db db' : Database} {t : TxId} {tx : Transaction} (later : db.Later db')
    (open_ : db'.slots t = .active tx) : db.slots t = .unused ∨ ∃ before, db.slots t = .active before := by
  have grown := later.slots t
  cases before : db.slots t with
  | unused => exact Or.inl rfl
  | active tx₀ => exact Or.inr ⟨tx₀, rfl⟩
  | committed tx₀ =>
    rw [before] at grown
    exact absurd (open_.symm.trans grown) (by simp)
  | aborted tx₀ =>
    rw [before] at grown
    exact absurd (open_.symm.trans grown) (by simp)

theorem Database.Later.committed {db db' : Database} {t : TxId} {tx : Transaction} (later : db.Later db')
    (here : db.slots t = .committed tx) : db'.slots t = .committed tx := by
  have grown := later.slots t
  rw [here] at grown
  exact grown

theorem begin_slot {db db' : Database} {t : TxId} {call : Call} {clock now : Instant}
    (h : step db (.begin t call clock now) = some db') :
    db.slots t = .unused ∧ db'.slots t = .active { call, now, clock } := by
  cases step_moves h with
  | begin unused => exact ⟨unused, by simp⟩

theorem used_step {db db' : Database} {action : Action} {t : TxId} (h : step db action = some db')
    (used : db'.slots t ≠ .unused) : db.slots t ≠ .unused ∨ ∃ call clock now, action = .begin t call clock now := by
  by_cases other : t = action.tx
  · subst other
    cases step_moves h with
    | begin unused => exact Or.inr ⟨_, _, _, rfl⟩
    | select here | take here | skip here | drop here | fetch here | update here | insert here | commit here
    | abort here => exact Or.inl (by simp [Action.tx, here])
  · exact Or.inl (step_other_slot h other ▸ used)

/-- A transaction keeps the call that began it. -/
theorem call_step {db db' : Database} {action : Action} {t : TxId} {tx' : Transaction}
    (h : step db action = some db') (found : (db'.slots t).tx = some tx') :
    (∃ tx, (db.slots t).tx = some tx ∧ tx'.call = tx.call) ∨
      ∃ clock now, action = .begin t tx'.call clock now := by
  have used : db'.slots t ≠ .unused := by
    intro unused
    rw [unused] at found
    cases found
  rcases used_step h used with before | ⟨call, clock, now, rfl⟩
  · have present : ∃ tx, (db.slots t).tx = some tx := by
      cases slot : db.slots t with
      | unused => exact absurd slot before
      | active tx | committed tx | aborted tx => exact ⟨tx, rfl⟩
    obtain ⟨tx, here⟩ := present
    obtain ⟨tx'', found', grows⟩ := (slot_later h t).tx here
    obtain rfl := Option.some.inj (found.symm.trans found')
    exact Or.inl ⟨tx, here, grows.call⟩
  · rw [(begin_slot h).2] at found
    obtain rfl := Option.some.inj found
    exact Or.inr ⟨clock, now, rfl⟩

end BetSettlement.BetMaker
