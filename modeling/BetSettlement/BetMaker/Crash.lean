import BetSettlement.BetMaker.Consumer

/-!
# The end of the process

A process that ends forgets its tick, its deliveries and its requests. The server rolls back what the
connections of the process have left open.
-/

namespace BetSettlement.BetMaker
open Python Machine

def Slot.severed : Slot → Slot
  | .active tx => .aborted tx
  | slot => slot

def Database.sever (db : Database) : Database :=
  { table := { rows := db.table.rows }, slots := fun t => (db.slots t).severed }

theorem severed_active (slot : Slot) (tx : Transaction) : slot.severed ≠ .active tx := by
  cases slot <;> simp [Slot.severed]

theorem severed_ended {slot : Slot} (ended : ∀ tx, slot ≠ .active tx) : slot.severed = slot := by
  cases slot with
  | active tx => exact absurd rfl (ended tx)
  | _ => rfl

theorem sever_inv (db : Database) : Inv db.sever where
  owns t tx here := absurd here (severed_active _ tx)
  holder id t held := by cases held
  unused t _ := rfl

theorem sever_later (db : Database) : db.Later db.sever where
  rows id bet found := ⟨bet, found, .refl bet⟩
  slots t := by
    change (db.slots t).Later (db.slots t).severed
    cases db.slots t with
    | active tx => exact ⟨tx, rfl, .refl tx⟩
    | unused => trivial
    | committed tx | aborted tx => rfl

/-! ### As a run of rollbacks -/

def Slot.isActive : Slot → Bool
  | .active _ => true
  | _ => false

theorem Slot.isActive_iff {slot : Slot} : slot.isActive = true ↔ ∃ tx, slot = .active tx := by
  cases slot <;> simp [Slot.isActive]

/-- A transaction that is not open has no uncommitted version left. -/
def Cleared (db : Database) : Prop := ∀ t, (∀ tx, db.slots t ≠ .active tx) → db.table.written t = ∅

theorem start_cleared (rows : AList fun _ : UUID => Bet) : Cleared (Database.start rows) := fun _ _ => rfl

theorem cleared_move {db : Database} {t : TxId} {slot : Slot} {table : Table UUID Bet TxId} (h : Cleared db)
    (others : ∀ u, u ≠ t → table.written u = db.table.written u)
    (own : (∀ tx, slot ≠ .active tx) → table.written t = ∅) : Cleared { db.setSlot t slot with table } := by
  intro u ended
  by_cases same : u = t
  · subst same
    refine own fun tx active => ended tx ?_
    simpa using active
  · refine (others u same).trans (h u fun tx active => ended tx ?_)
    simpa [same] using active

theorem cleared_step {db db' : Database} {action : Action} (inv : Inv db) (h : Cleared db)
    (next : step db action = some db') : Cleared db' := by
  have active : ∀ {t tx} (table : Table UUID Bet TxId), (∀ u, u ≠ t → table.written u = db.table.written u) →
      Cleared { db.setSlot t (.active tx) with table } := by
    intro t tx table others
    exact cleared_move h others fun ended => absurd rfl (ended tx)
  cases step_moves next with
  | begin | select | skip | drop | fetch => exact active _ fun _ _ => rfl
  | take => exact active _ fun _ _ => rfl
  | update here settles phase some_taken written =>
    exact active _ (Table.update_updates (inv.owns _ _ here).distinct written).others
  | insert => exact active _ fun u other => Table.put_written_other other
  | commit here =>
    exact cleared_move h (fun u other => Table.commit_written_other other) fun _ => Table.abort_written _ _
  | abort here =>
    exact cleared_move h (fun u other => Table.abort_written_other other) fun _ => Table.abort_written _ _

/-- The transactions that have begun are among these. -/
def Begun (db : Database) (ts : List TxId) : Prop := ∀ t, db.slots t ≠ .unused → t ∈ ts

theorem begun_step {db db' : Database} {action : Action} {ts : List TxId} (h : Begun db ts)
    (next : step db action = some db') : Begun db' (action.tx :: ts) := by
  intro t used
  rcases used_step next used with before | ⟨call, clock, now, rfl⟩
  · exact List.mem_cons_of_mem _ (h t before)
  · exact List.mem_cons_self

/-- The rollbacks of some of the open transactions. -/
structure Severs (db : Database) (ts : List TxId) (db' : Database) : Prop where
  rows : db'.table.rows = db.table.rows
  slots : ∀ t, db'.slots t = if t ∈ ts then (db.slots t).severed else db.slots t

theorem severs_run {db : Database} {ts : List TxId} (distinct : ts.Nodup)
    (open_ : ∀ t ∈ ts, ∃ tx, db.slots t = .active tx) :
    ∃ db', run step db (ts.map .abort) = some db' ∧ Severs db ts db' := by
  induction ts generalizing db with
  | nil => exact ⟨db, rfl, rfl, fun t => by simp⟩
  | cons t rest ih =>
    obtain ⟨apart, distinct⟩ := List.nodup_cons.mp distinct
    obtain ⟨tx, here⟩ := open_ t List.mem_cons_self
    have next : step db (.abort t) = some (abort db t tx) := by simp [step, Database.during, here]
    have others : ∀ u, u ≠ t → (abort db t tx).slots u = db.slots u := by
      intro u other
      simp [abort, other]
    have left : ∀ u ∈ rest, ∃ tx', (abort db t tx).slots u = .active tx' := by
      intro u member
      rw [others u (ne_of_mem_of_not_mem member apart)]
      exact open_ u (List.mem_cons_of_mem _ member)
    obtain ⟨db', reached, severs⟩ := ih distinct left
    refine ⟨db', run_cons.mpr ⟨_, next, reached⟩, severs.rows, fun u => ?_⟩
    rw [severs.slots]
    by_cases same : u = t
    · subst same
      simp [apart, abort, here, Slot.severed]
    · simp [same, others u same]

/-- What the server does when the process has ended is a run of rollbacks. -/
theorem sever_run {db : Database} {ts : List TxId} (inv : Inv db) (cleared : Cleared db) (begun : Begun db ts) :
    ∃ open_ : List TxId, run step db (open_.map .abort) = some db.sever := by
  have listed : ∀ t, t ∈ ts.dedup.filter (fun t => (db.slots t).isActive) ↔ ∃ tx, db.slots t = .active tx := by
    intro t
    rw [List.mem_filter, List.mem_dedup, Slot.isActive_iff]
    exact and_iff_right_of_imp fun ⟨tx, here⟩ => begun t (by simp [here])
  obtain ⟨db', reached, severs⟩ := severs_run ((List.nodup_dedup ts).filter _) fun t member => (listed t).mp member
  have slots : db'.slots = db.sever.slots := by
    funext t
    rw [severs.slots]
    split
    · rfl
    · rename_i outside
      exact (severed_ended fun tx here => outside ((listed t).mpr ⟨tx, here⟩)).symm
  have ended : ∀ t tx, db'.slots t ≠ .active tx := by
    intro t tx here
    rw [slots] at here
    exact severed_active _ _ here
  have kept := run_invariant (P := fun db => Inv db ∧ Cleared db)
    (fun s action s' held next => ⟨step_inv held.1 next, cleared_step held.1 held.2 next⟩) ⟨inv, cleared⟩ reached
  have holder : db'.table.holder = fun _ => none := by
    funext id
    cases held : db'.table.holder id with
    | none => rfl
    | some t =>
      obtain ⟨tx, here⟩ := kept.1.holder id t held
      exact absurd here (ended t tx)
  have written : db'.table.written = fun _ => ∅ := by
    funext t
    exact kept.2 t (ended t)
  refine ⟨_, reached.trans (congrArg some ?_)⟩
  obtain ⟨⟨rows', holder', written'⟩, slots'⟩ := db'
  simp only at holder written slots
  subst holder written slots
  exact congrArg (fun rows => Database.mk { rows } db.sever.slots) severs.rows

/-! ### As the service itself could go on -/

section
variable [Pydantic]

def Service.crash (s : Service) : Service := { db := s.db.sever }

theorem crash_handling (s : Service) : Handling s.crash where
  attempting h message attempts t here := by cases here
  acked h message t here := by cases here

structure Orderly (s : Service) : Prop where
  inv : Inv s.db
  cleared : Cleared s.db
  begun : ∃ ts, Begun s.db ts
  running : ∀ t todo, s.tick = .running t todo → s.db.slots t ≠ .unused

theorem start_orderly (rows : AList fun _ : UUID => Bet) : Orderly (Service.start rows) where
  inv := start_inv rows
  cleared := start_cleared rows
  begun := ⟨[], fun t used => absurd rfl used⟩
  running t todo here := by cases here

theorem orderly_step {s s' : Service} {event : Event} (h : Orderly s) (next : serve s event = some s') :
    Orderly s' := by
  have db : Inv s'.db ∧ Cleared s'.db ∧ (∃ ts, Begun s'.db ts) ∧ s.db.Later s'.db := by
    rcases serve_db next with same | ⟨action, moved⟩
    · rw [same]
      exact ⟨h.inv, h.cleared, h.begun, .refl s.db⟩
    · obtain ⟨ts, begun⟩ := h.begun
      exact ⟨step_inv h.inv moved, cleared_step h.inv h.cleared moved, ⟨_, begun_step begun moved⟩,
        step_later h.inv moved⟩
  have kept : s'.tick = s.tick → ∀ t todo, s'.tick = .running t todo → s'.db.slots t ≠ .unused := by
    intro same t todo here
    exact (db.2.2.2.slots t).used (h.running t todo (same ▸ here))
  refine ⟨db.1, db.2.1, db.2.2.1, ?_⟩
  cases serve_serves next with
  | @tickBegin eventId todo' snapshot call t clock now db' decided begun =>
    intro u todo here
    obtain ⟨rfl, rfl⟩ := Tick.running.inj here
    change db'.slots t ≠ .unused
    rw [(begin_slot begun).2]
    exact Slot.noConfusion
  | tickRead | tickPass | tickDecide | tickFails | tickNext | tickStop =>
    intro t todo here
    cases here
  | _ => exact kept rfl

/-- What can happen whatever line-provider answers. -/
def Event.Blind : Event → Prop
  | .transaction (.abort _) | .tick (.lookup .unavailable) | .tick .fails | .tick .next | .tick .stop => True
  | _ => False

theorem aborts_serve {s : Service} {db : Database} {ts : List TxId} (h : run step s.db (ts.map .abort) = some db) :
    run serve s (ts.map fun t => .transaction (.abort t)) = some { s with db } := by
  induction ts generalizing s with
  | nil =>
    obtain rfl := run_nil.mp h
    rfl
  | cons t rest ih =>
    obtain ⟨middle, first, last⟩ := run_cons.mp h
    have next : serve s (.transaction (.abort t)) = some { s with db := middle } := by
      simp only [serve, first, Option.map_some]
    exact run_cons.mpr ⟨_, next, ih (s := { s with db := middle }) last⟩

/-- The tick passes over the events that are left. -/
theorem ready_ends {todo : List UUID} {s : Service} (ready : s.tick = .ready todo) : ∃ events s',
    run serve s events = some s' ∧ (∀ event ∈ events, event.Blind) ∧ s'.tick = .idle ∧ s'.db = s.db ∧
      s'.handlers = s.handlers ∧ s'.placing = s.placing := by
  induction todo generalizing s with
  | nil =>
    have next : serve s (.tick .stop) = some { s with tick := .idle } := by simp [serve, tickStep, ready]
    exact ⟨[.tick .stop], _, run_cons.mpr ⟨_, next, run_nil.mpr rfl⟩, by simp [Event.Blind], rfl, rfl, rfl, rfl⟩
  | cons eventId rest ih =>
    have next : serve s (.tick (.lookup .unavailable)) =
        some { s.record ⟨eventId, .unavailable, none⟩ with tick := .ready rest } := by
      simp [serve, tickStep, ready]
    obtain ⟨events, s', reached, blind, idle, db, handlers, placing⟩ :=
      ih (s := { s.record ⟨eventId, .unavailable, none⟩ with tick := .ready rest }) rfl
    refine ⟨_ :: events, s', run_cons.mpr ⟨_, next, reached⟩, ?_, idle, db, handlers, placing⟩
    intro event member
    rcases List.mem_cons.mp member with rfl | later
    · trivial
    · exact blind event later

theorem tick_ends {s : Service} (ended : ∀ t todo, s.tick = .running t todo → ∃ tx,
    s.db.slots t = .committed tx ∨ s.db.slots t = .aborted tx) : ∃ events s',
    run serve s events = some s' ∧ (∀ event ∈ events, event.Blind) ∧ s'.tick = .idle ∧ s'.db = s.db ∧
      s'.handlers = s.handlers ∧ s'.placing = s.placing := by
  have after : ∀ event m todo, serve s event = some m → event.Blind → m.tick = .ready todo → m.db = s.db →
      m.handlers = s.handlers → m.placing = s.placing → ∃ events s', run serve s events = some s' ∧
        (∀ event ∈ events, event.Blind) ∧ s'.tick = .idle ∧ s'.db = s.db ∧
        s'.handlers = s.handlers ∧ s'.placing = s.placing := by
    intro event m todo next blind ready db handlers placing
    obtain ⟨events, s', reached, blinds, idle, db', handlers', placing'⟩ := ready_ends ready
    refine ⟨event :: events, s', run_cons.mpr ⟨m, next, reached⟩, ?_, idle, db'.trans db, handlers'.trans handlers,
      placing'.trans placing⟩
    intro other member
    rcases List.mem_cons.mp member with rfl | later
    · exact blind
    · exact blinds other later
  cases here : s.tick with
  | idle => exact ⟨[], s, rfl, by simp, here, rfl, rfl, rfl⟩
  | ready todo => exact ready_ends here
  | decided eventId snapshot call todo =>
    exact after (.tick .fails) { s.record ⟨eventId, .answered snapshot, none⟩ with tick := .ready todo } todo
      (by simp [serve, tickStep, here]) trivial rfl rfl rfl rfl
  | running t todo =>
    refine after (.tick .next) { s with tick := .ready todo } todo ?_ trivial rfl rfl rfl rfl
    obtain ⟨tx, committed | aborted⟩ := ended t todo here
    · simp [serve, tickStep, here, committed]
    · simp [serve, tickStep, here, aborted]

/-- The service could have come to the same database by itself, with its handlers and requests stuck for good. -/
theorem crash_serves {s : Service} (h : Orderly s) : ∃ events s', run serve s events = some s' ∧
    (∀ event ∈ events, event.Blind) ∧ s'.tick = .idle ∧ s'.db = s.crash.db ∧ s'.handlers = s.handlers ∧
      s'.placing = s.placing := by
  obtain ⟨ts, begun⟩ := h.begun
  obtain ⟨open_, aborts⟩ := sever_run h.inv h.cleared begun
  have severed := aborts_serve aborts
  have ended : ∀ t todo, s.tick = .running t todo → ∃ tx,
      s.db.sever.slots t = .committed tx ∨ s.db.sever.slots t = .aborted tx := by
    intro t todo here
    have used := h.running t todo here
    change ∃ tx, (s.db.slots t).severed = .committed tx ∨ (s.db.slots t).severed = .aborted tx
    cases slot : s.db.slots t with
    | unused => exact absurd slot used
    | active tx | committed tx | aborted tx => exact ⟨tx, by simp [Slot.severed]⟩
  obtain ⟨events, s', reached, blind, idle, db, handlers, placing⟩ :=
    tick_ends (s := { s with db := s.db.sever }) ended
  refine ⟨_ ++ events, s', run_append.mpr ⟨_, severed, reached⟩, ?_, idle, db, handlers, placing⟩
  intro event member
  rcases List.mem_append.mp member with abort | later
  · obtain ⟨t, -, rfl⟩ := List.mem_map.mp abort
    trivial
  · exact blind event later

end

end BetSettlement.BetMaker
