import BetSettlement.Machine.Script
import BetSettlement.BetMaker.Reads

/-!
# Migrations of the bets table

The Alembic revisions of bet-maker, and the bets that a walk along them leaves when the processes that run it may
end anywhere.
-/

namespace BetSettlement.BetMaker
open Python Machine

/-! ### The catalog of PostgreSQL -/

inductive ColumnType where
  | uuid
  | numeric (precision scale : Nat)
  | betStatus
  | timestamptz
  | text
  deriving DecidableEq

structure Column where
  name : String
  type : ColumnType
  nullable : Bool := false
  serverDefault : Option String := none
  deriving DecidableEq

/-- A label of an enum is stored by its place in the type: a rename leaves the rows alone. -/
inductive Value where
  | null
  | uuid (value : UUID)
  | numeric (value : Decimal)
  | label (ordinal : Nat)
  | timestamp (value : Instant)
  | text (value : String)
  deriving DecidableEq

abbrev Row := List (String × Value)

structure BetsTable where
  columns : List Column
  rows : List Row := []
  deriving DecidableEq

inductive Revision where
  | betsInitial | betsSettledColumns | betStatusCancelled | betStatusCancelUpper
  deriving DecidableEq

def Revision.revision : Revision → String
  | .betsInitial => "0001_bets_initial"
  | .betsSettledColumns => "0002_bets_settled_columns"
  | .betStatusCancelled => "0003_bet_status_cancelled"
  | .betStatusCancelUpper => "0004_bet_status_cancel_upper"

def Revision.downRevision : Revision → Option Revision
  | .betsInitial => none
  | .betsSettledColumns => some .betsInitial
  | .betStatusCancelled => some .betsSettledColumns
  | .betStatusCancelUpper => some .betStatusCancelled

/-- The type `bet_status`, the table `bets` and the row of `alembic_version`. -/
structure Catalog where
  betStatus : Option (List String) := none
  bets : Option BetsTable := none
  version : Option Revision := none
  deriving DecidableEq

inductive Ddl where
  | createBetStatus (labels : List String)
  | dropBetStatus
  | createBets (columns : List Column)
  | dropBets
  | addColumn (column : Column)
  | dropColumn (name : String)
  | addValueIfNotExists (label : String)
  | renameValue (label newLabel : String)
  | stamp (version newVersion : Option Revision)

def BetsTable.names (table : BetsTable) : List String := table.columns.map Column.name

/-- `none` is an error of PostgreSQL. The type is created and dropped with `checkfirst`. -/
def Ddl.execute (cat : Catalog) : Ddl → Option Catalog
  | .createBetStatus labels =>
    match cat.betStatus with
    | some _ => some cat
    | none => some { cat with betStatus := some labels }
  | .dropBetStatus =>
    if cat.betStatus.isSome ∧ ∃ table ∈ cat.bets, .betStatus ∈ table.columns.map Column.type then none
    else some { cat with betStatus := none }
  | .createBets columns =>
    if cat.bets.isSome ∨ (cat.betStatus = none ∧ .betStatus ∈ columns.map Column.type) then none
    else some { cat with bets := some { columns } }
  | .dropBets => cat.bets.map fun _ => { cat with bets := none }
  | .addColumn column => do
    let table ← cat.bets
    if column.name ∈ table.names ∨ (column.nullable = false ∧ table.rows ≠ []) then none
    else some { cat with bets := some {
      columns := table.columns ++ [column], rows := table.rows.map (· ++ [(column.name, .null)]) } }
  | .dropColumn name => do
    let table ← cat.bets
    if name ∉ table.names then none
    else some { cat with bets := some {
      columns := table.columns.filter (·.name ≠ name), rows := table.rows.map (·.filter (·.1 ≠ name)) } }
  | .addValueIfNotExists label => do
    let labels ← cat.betStatus
    some { cat with betStatus := some (if label ∈ labels then labels else labels ++ [label]) }
  | .renameValue label newLabel => do
    let labels ← cat.betStatus
    if label ∉ labels ∨ newLabel ∈ labels then none
    else some { cat with betStatus := some (labels.map fun other => if other = label then newLabel else other) }
  | .stamp version newVersion =>
    -- `version_num` is a VARCHAR(32), and the statement must meet one row.
    if cat.version = version ∧ ∀ revision ∈ newVersion, revision.revision.length ≤ 32 then
      some { cat with version := newVersion }
    else none

/-! ### The revisions -/

def initialLabels : List String := ["PENDING", "WON", "LOST"]

def initialColumns : List Column :=
  [{ name := "id", type := .uuid },
   { name := "event_id", type := .uuid },
   { name := "amount", type := .numeric 12 2 },
   { name := "status", type := .betStatus, serverDefault := some "PENDING" },
   { name := "created_at", type := .timestamptz, serverDefault := some "now()" },
   { name := "updated_at", type := .timestamptz, serverDefault := some "now()" }]

def settledAtColumn : Column := { name := "settled_at", type := .timestamptz, nullable := true }

def settledViaColumn : Column := { name := "settled_via", type := .text, nullable := true }

def Revision.upgrade : Revision → List (Instruction Ddl)
  | .betsInitial => [.inside (.createBetStatus initialLabels), .inside (.createBets initialColumns)]
  | .betsSettledColumns => [.inside (.addColumn settledAtColumn), .inside (.addColumn settledViaColumn)]
  | .betStatusCancelled => autocommitBlock [.addValueIfNotExists "cancelled"]
  | .betStatusCancelUpper => [.inside (.renameValue "cancelled" "CANCELLED")]

def Revision.downgrade : Revision → List (Instruction Ddl)
  | .betsInitial => [.inside .dropBets, .inside .dropBetStatus]
  | .betsSettledColumns => [.inside (.dropColumn "settled_via"), .inside (.dropColumn "settled_at")]
  | .betStatusCancelled => []
  | .betStatusCancelUpper => [.inside (.renameValue "CANCELLED" "cancelled")]

/-- The revisions in the order of their `down_revision`. -/
def revisions : List Revision :=
  [.betsInitial, .betsSettledColumns, .betStatusCancelled, .betStatusCancelUpper]

def head : Revision := .betStatusCancelUpper

/-- How many revisions a version stands on. -/
def height : Option Revision → Nat
  | none => 0
  | some .betsInitial => 1
  | some .betsSettledColumns => 2
  | some .betStatusCancelled => 3
  | some .betStatusCancelUpper => 4

inductive Command where
  | upgrade (revision : Revision)
  | downgrade (revision : Option Revision)

/-- The revisions that an upgrade applies, the oldest one first. -/
def toUpgrade (version : Option Revision) (target : Revision) : List Revision :=
  revisions.filter fun r => height version < height r ∧ height r ≤ height target

/-- The revisions that a downgrade takes back, the newest one first. -/
def toDowngrade (version target : Option Revision) : List Revision :=
  revisions.reverse.filter fun r => height target < height r ∧ height r ≤ height version

/-- A revision, and its row in `alembic_version`. -/
def Revision.up (r : Revision) : List (Instruction Ddl) := r.upgrade ++ [.inside (.stamp r.downRevision (some r))]

def Revision.down (r : Revision) : List (Instruction Ddl) := r.downgrade ++ [.inside (.stamp (some r) r.downRevision)]

/-- `context.run_migrations()`. -/
def Command.runMigrations (version : Option Revision) : Command → List (Instruction Ddl)
  | .upgrade target => (toUpgrade version target).flatMap Revision.up
  | .downgrade target => (toDowngrade version target).flatMap Revision.down

/-- `do_run_migrations` in one transaction. -/
def Command.script (version : Option Revision) (command : Command) : List (Instruction Ddl) :=
  command.runMigrations version ++ [.commit]

/-! ### The rows of the model -/

def BetStatus.value : BetStatus → String
  | .pending => "PENDING"
  | .won => "WON"
  | .lost => "LOST"
  | .cancelled => "CANCELLED"

def BetStatus.all : List BetStatus := [.pending, .won, .lost, .cancelled]

def BetStatus.ofValue (value : String) : Option BetStatus := BetStatus.all.find? (·.value = value)

def SettledVia.value : SettledVia → String
  | .consumer => "consumer"
  | .reconciler => "reconciler"

def SettledVia.ofValue : String → Option SettledVia
  | "consumer" => some .consumer
  | "reconciler" => some .reconciler
  | _ => none

/-- The columns of the class `Bet`. -/
def Bet.columns : List (String × ColumnType × Bool) :=
  [("id", .uuid, false), ("event_id", .uuid, false), ("amount", .numeric 12 2, false), ("status", .betStatus, false),
   ("created_at", .timestamptz, false), ("updated_at", .timestamptz, false), ("settled_at", .timestamptz, true),
   ("settled_via", .text, true)]

/-- What the session sends of a bet. -/
def Bet.toRow (labels : List String) (bet : Bet) : Option Row := do
  let ordinal ← labels.findIdx? (· = bet.status.value)
  some [("id", .uuid bet.id), ("event_id", .uuid bet.eventId), ("amount", .numeric bet.amount),
    ("status", .label ordinal), ("created_at", .timestamp bet.createdAt), ("updated_at", .timestamp bet.updatedAt),
    ("settled_at", bet.settledAt.elim .null .timestamp),
    ("settled_via", bet.settledVia.elim .null fun via => .text via.value)]

/-- What the session makes of a row. -/
def Bet.ofRow (labels : List String) (row : Row) : Option Bet :=
  match row.lookup "id", row.lookup "event_id", row.lookup "amount", row.lookup "status", row.lookup "created_at",
    row.lookup "updated_at", row.lookup "settled_at", row.lookup "settled_via" with
  | some (.uuid id), some (.uuid eventId), some (.numeric amount), some (.label ordinal), some (.timestamp createdAt),
    some (.timestamp updatedAt), some settledAt, some settledVia => do
    let status ← labels[ordinal]?.bind BetStatus.ofValue
    let settledAt ← match settledAt with
      | .null => some none
      | .timestamp value => some (some value)
      | _ => none
    let settledVia ← match settledVia with
      | .null => some none
      | .text value => (SettledVia.ofValue value).map some
      | _ => none
    some { id, eventId, amount, status, createdAt, updatedAt, settledAt, settledVia }
  | _, _, _, _, _, _, _, _ => none

/-- `SELECT` of all bets. -/
def Catalog.readBets (cat : Catalog) : Option (List Bet) := do
  let table ← cat.bets
  let labels ← cat.betStatus
  table.rows.mapM (Bet.ofRow labels)

/-- What the table can hold: its key is `id`, and an amount has the two decimal places of its column. -/
def Storable (bets : List Bet) : Prop :=
  (bets.map Bet.id).Nodup ∧ ∀ bet ∈ bets, bet.amount.exponent = -2 ∧ fitsNumeric bet.amount = true

instance : DecidablePred Storable := fun _ => inferInstanceAs (Decidable (_ ∧ _))

/-- The table once bet-maker has written these bets. -/
def Catalog.writeBets (cat : Catalog) (bets : List Bet) : Option Catalog := do
  let table ← cat.bets
  let labels ← cat.betStatus
  let rows ← bets.mapM (Bet.toRow labels)
  if Storable bets ∧ ∀ column ∈ Bet.columns, column.1 ∈ table.names then
    some { cat with bets := some { table with rows } }
  else none

/-! ### What happens to the database -/

/-- A command ends by itself, or with its process after some statements. bet-maker is started on the last revision
alone, and leaves any bets. -/
inductive Deployment where
  | alembic (command : Command) (cut : Option Nat)
  | serve (bets : List Bet)

def deploy (cat : Catalog) : Deployment → Option Catalog
  | .alembic command none =>
    (run (Session.step Ddl.execute) (.start cat) (command.script cat.version)).map Session.durable
  | .alembic command (some n) =>
    (run (Session.step Ddl.execute) (.start cat) ((command.script cat.version).take n)).map Session.durable
  | .serve bets => if cat.version = some head then cat.writeBets bets else none

/-- What a revision has a place for. -/
def keeps : Option Revision → List Bet → List Bet
  | none, _ => []
  | some .betsInitial, bets => bets.map fun bet => { bet with settledAt := none, settledVia := none }
  | some _, bets => bets

/-- The bets that were served last, as far as the versions since then had a place for them. -/
def kept (cat : Catalog) (bets : List Bet) : List Deployment → List Bet
  | [] => bets
  | deployment :: rest =>
    match deploy cat deployment with
    | none => bets
    | some next =>
      match deployment with
      | .alembic _ _ => kept next (keeps next.version bets) rest
      | .serve served => kept next served rest

/-! ### The catalog at each version -/

def BetStatus.ordinal : BetStatus → Nat
  | .pending => 0
  | .won => 1
  | .lost => 2
  | .cancelled => 3

def Bet.initialCells (bet : Bet) : Row :=
  [("id", .uuid bet.id), ("event_id", .uuid bet.eventId), ("amount", .numeric bet.amount),
   ("status", .label bet.status.ordinal), ("created_at", .timestamp bet.createdAt),
   ("updated_at", .timestamp bet.updatedAt)]

def Bet.settledCells (bet : Bet) : Row :=
  [("settled_at", bet.settledAt.elim .null .timestamp),
   ("settled_via", bet.settledVia.elim .null fun via => .text via.value)]

def tableAt : Option Revision → List Bet → Option BetsTable
  | none, _ => none
  | some .betsInitial, bets => some ⟨initialColumns, bets.map Bet.initialCells⟩
  | some _, bets =>
    some ⟨initialColumns ++ [settledAtColumn, settledViaColumn], bets.map fun bet => bet.initialCells ++ bet.settledCells⟩

/-- The label of the third revision stays when the revision is taken back. -/
inductive LabelsAt (bets : List Bet) : Option Revision → Option (List String) → Prop
  | base : LabelsAt bets none none
  | initial {r} (low : height (some r) ≤ 2) (none_cancelled : ∀ bet ∈ bets, bet.status ≠ .cancelled) :
      LabelsAt bets (some r) (some initialLabels)
  | lower {r} (below : r ≠ head) : LabelsAt bets (some r) (some (initialLabels ++ ["cancelled"]))
  | upper : LabelsAt bets (some head) (some (initialLabels ++ ["CANCELLED"]))

structure Shaped (version : Option Revision) (bets : List Bet) (cat : Catalog) : Prop where
  stamped : cat.version = version
  labels : LabelsAt bets version cat.betStatus
  table : cat.bets = tableAt version bets
  kept : keeps version bets = bets

theorem keeps_keeps (version : Option Revision) (bets : List Bet) :
    keeps version (keeps version bets) = keeps version bets := by
  cases version with
  | none => rfl
  | some r => cases r <;> simp [keeps]

theorem keeps_down (r : Revision) (bets : List Bet) :
    keeps r.downRevision (keeps (some r) bets) = keeps r.downRevision bets := by
  cases r <;> simp [Revision.downRevision, keeps]

theorem status_keeps {version : Option Revision} {bets : List Bet} {status : BetStatus}
    (h : ∀ bet ∈ bets, bet.status ≠ status) : ∀ bet ∈ keeps version bets, bet.status ≠ status := by
  cases version with
  | none => simp [keeps]
  | some r => cases r <;> simpa [keeps] using h

theorem keeps_initial {bets : List Bet} (h : keeps (some .betsInitial) bets = bets) :
    ∀ bet ∈ bets, bet.settledAt = none ∧ bet.settledVia = none := by
  intro bet member
  rw [← h] at member
  obtain ⟨before, -, rfl⟩ := List.mem_map.mp member
  exact ⟨rfl, rfl⟩

/-! ### Statements on the catalog -/

theorem addColumn_runs {cat : Catalog} {columns : List Column} {rows : List Row} {column : Column}
    (here : cat.bets = some ⟨columns, rows⟩) (fresh : column.name ∉ columns.map Column.name)
    (nullable : column.nullable = true) :
    (Ddl.addColumn column).execute cat =
      some { cat with bets := some ⟨columns ++ [column], rows.map (· ++ [(column.name, .null)])⟩ } := by
  have accepted : ¬ (column.name ∈ columns.map Column.name ∨ (column.nullable = false ∧ rows ≠ [])) := by
    rintro (listed | ⟨required, -⟩)
    · exact fresh listed
    · cases nullable.symm.trans required
  simp only [Ddl.execute, here]
  exact if_neg accepted

theorem dropColumn_runs {cat : Catalog} {columns : List Column} {rows : List Row} {name : String}
    (here : cat.bets = some ⟨columns, rows⟩) (listed : name ∈ columns.map Column.name) :
    (Ddl.dropColumn name).execute cat =
      some { cat with bets := some ⟨columns.filter (·.name ≠ name), rows.map (·.filter (·.1 ≠ name))⟩ } := by
  simp only [Ddl.execute, here]
  exact if_neg (not_not.mpr listed)

theorem renameValue_runs {cat : Catalog} {labels : List String} {label newLabel : String}
    (here : cat.betStatus = some labels) (listed : label ∈ labels) (fresh : newLabel ∉ labels) :
    (Ddl.renameValue label newLabel).execute cat = some { cat with
      betStatus := some (labels.map fun other => if other = label then newLabel else other) } := by
  simp [Ddl.execute, here, listed, fresh]

theorem stamp_runs {cat : Catalog} {version newVersion : Option Revision} (here : cat.version = version) :
    (Ddl.stamp version newVersion).execute cat = some { cat with version := newVersion } := by
  have short : ∀ revision ∈ newVersion, revision.revision.length ≤ 32 := by
    rintro (_ | _ | _ | _) - <;> decide
  exact if_pos ⟨here, short⟩

/-! ### One revision -/

variable {safe : Catalog → Prop} {session : Session Catalog} {bets : List Bet}

/-- What an upgrade does from one version to the next. -/
theorem up_survives (r : Revision) (committed : ∀ v cat, Shaped v bets cat → safe cat) (kept : safe session.durable)
    (begins : Shaped r.downRevision bets session.working) :
    Survives Ddl.execute safe (fun s => Shaped (some r) bets s.working ∧ safe s.durable) r.up session := by
  obtain ⟨durable, betStatus, table, version⟩ := session
  obtain ⟨rfl, labels, rfl, forgotten⟩ := begins
  cases r with
  | betsInitial =>
    cases labels
    obtain rfl : [] = bets := forgotten
    refine survives_inside kept rfl (survives_inside kept rfl ?_)
    refine survives_inside kept (stamp_runs rfl) ⟨kept, ⟨rfl, .initial (by decide) (by simp), rfl, rfl⟩, kept⟩
  | betsSettledColumns =>
    have cleared := keeps_initial forgotten
    refine survives_inside kept (addColumn_runs rfl (by decide) rfl) ?_
    refine survives_inside kept (addColumn_runs rfl (by decide) rfl) ?_
    refine survives_inside kept (stamp_runs rfl) ⟨kept, ⟨rfl, ?_, ?_, rfl⟩, kept⟩
    · cases labels with
      | initial low none_cancelled => exact .initial (by decide) none_cancelled
      | lower below => exact .lower (by decide)
    · refine congrArg some (congrArg (BetsTable.mk _) ?_)
      rw [List.map_map, List.map_map]
      refine List.map_congr_left fun bet member => ?_
      simp [Bet.settledCells, cleared bet member, settledAtColumn, settledViaColumn]
  | betStatusCancelled =>
    have before : Shaped (some .betsSettledColumns) bets ⟨betStatus, tableAt (some .betsSettledColumns) bets,
        some .betsSettledColumns⟩ := ⟨rfl, labels, rfl, rfl⟩
    have added : (Ddl.addValueIfNotExists "cancelled").execute ⟨betStatus, tableAt (some .betsSettledColumns) bets,
        some .betsSettledColumns⟩ = some ⟨some (initialLabels ++ ["cancelled"]),
          tableAt (some .betsSettledColumns) bets, some .betsSettledColumns⟩ := by
      cases labels <;> rfl
    have after : Shaped (some .betsSettledColumns) bets ⟨some (initialLabels ++ ["cancelled"]),
        tableAt (some .betsSettledColumns) bets, some .betsSettledColumns⟩ := ⟨rfl, .lower (by decide), rfl, rfl⟩
    refine survives_commit kept (survives_autocommit (committed _ _ before) added ?_)
    refine survives_inside (committed _ _ after) (stamp_runs rfl) ⟨committed _ _ after, ?_, committed _ _ after⟩
    exact ⟨rfl, .lower (by decide), rfl, rfl⟩
  | betStatusCancelUpper =>
    cases labels with
    | initial low => cases Nat.not_succ_le_self 2 low
    | lower below =>
      refine survives_inside kept (renameValue_runs rfl (by decide) (by decide)) ?_
      exact survives_inside kept (stamp_runs rfl) ⟨kept, ⟨rfl, .upper, rfl, rfl⟩, kept⟩

/-- What a downgrade does from one version to the one before. -/
theorem down_survives (r : Revision) (kept : safe session.durable) (begins : Shaped (some r) bets session.working) :
    Survives Ddl.execute safe (fun s => Shaped r.downRevision (keeps r.downRevision bets) s.working ∧
      safe s.durable) r.down session := by
  obtain ⟨durable, betStatus, table, version⟩ := session
  obtain ⟨rfl, labels, rfl, forgotten⟩ := begins
  cases r with
  | betsInitial =>
    have dropped : Ddl.dropBetStatus.execute ⟨betStatus, none, some .betsInitial⟩ =
        some ⟨none, none, some .betsInitial⟩ := by simp [Ddl.execute]
    refine survives_inside kept rfl (survives_inside kept dropped ?_)
    exact survives_inside kept (stamp_runs rfl) ⟨kept, ⟨rfl, .base, rfl, rfl⟩, kept⟩
  | betsSettledColumns =>
    refine survives_inside kept (dropColumn_runs rfl (by decide)) ?_
    refine survives_inside kept (dropColumn_runs rfl (by decide)) ?_
    refine survives_inside kept (stamp_runs rfl) ⟨kept, ⟨rfl, ?_, ?_, keeps_keeps _ _⟩, kept⟩
    · cases labels with
      | initial low none_cancelled => exact .initial (by decide) (status_keeps none_cancelled)
      | lower below => exact .lower (by decide)
    · refine congrArg some (congrArg (BetsTable.mk _) ?_)
      simp only [Revision.downRevision, keeps, List.map_map]
      exact List.map_congr_left fun bet member => rfl
  | betStatusCancelled =>
    refine survives_inside kept (stamp_runs rfl) ⟨kept, ⟨rfl, ?_, rfl, rfl⟩, kept⟩
    cases labels with
    | initial low => cases Nat.not_succ_le_self 2 low
    | lower below => exact .lower (by decide)
  | betStatusCancelUpper =>
    cases labels with
    | initial low => exact absurd low (by decide)
    | lower below => exact absurd rfl below
    | upper =>
      refine survives_inside kept (renameValue_runs rfl (by decide) (by decide)) ?_
      exact survives_inside kept (stamp_runs rfl) ⟨kept, ⟨rfl, .lower (by decide), rfl, rfl⟩, kept⟩

/-! ### One command -/

/-- Where a command ends. A target on the other side is no step. -/
def Command.arrives (version : Option Revision) : Command → Option Revision
  | .upgrade target => if height version ≤ height target then some target else version
  | .downgrade target => if height target ≤ height version then target else version

theorem upgrade_chains (version : Option Revision) (target : Revision) :
    Chains Revision.downRevision some version (toUpgrade version target)
      (Command.arrives version (.upgrade target)) := by
  rcases version with _ | version
  · cases target <;> decide
  · cases version <;> cases target <;> decide

theorem downgrade_chains (version target : Option Revision) :
    Chains some Revision.downRevision version (toDowngrade version target)
      (Command.arrives version (.downgrade target)) := by
  rcases version with _ | version
  · rcases target with _ | target
    · decide
    · cases target <;> decide
  · rcases target with _ | target
    · cases version <;> decide
    · cases version <;> cases target <;> decide

theorem upgrade_survives {version : Option Revision} {cat : Catalog} (shaped : Shaped version bets cat)
    (target : Revision) (committed : ∀ v next, Shaped v bets next → safe next) :
    Survives Ddl.execute safe (fun s => Shaped (Command.arrives version (.upgrade target)) bets s.working ∧
      safe s.durable) (Command.runMigrations version (.upgrade target)) (.start cat) := by
  refine survives_parts (fun v s => Shaped v bets s.working ∧ safe s.durable) (fun _ _ => And.right)
    (fun r s before => ?_) (upgrade_chains version target) ⟨shaped, committed _ _ shaped⟩
  exact up_survives r committed before.2 before.1

theorem downgrade_survives {version : Option Revision} {cat : Catalog} (shaped : Shaped version bets cat)
    (target : Option Revision) (kept : safe cat) :
    Survives Ddl.execute safe (fun s => Shaped (Command.arrives version (.downgrade target))
      (keeps (Command.arrives version (.downgrade target)) bets) s.working ∧ safe s.durable)
      (Command.runMigrations version (.downgrade target)) (.start cat) := by
  have begins : Shaped version (keeps version bets) cat := shaped.kept.symm ▸ shaped
  refine survives_parts (fun v s => Shaped v (keeps v bets) s.working ∧ safe s.durable) (fun _ _ => And.right)
    (fun r s before => ?_) (downgrade_chains version target) ⟨begins, kept⟩
  have down := down_survives r before.2 before.1
  rwa [keeps_down] at down

/-- The transaction around the revisions. -/
theorem script_survives {version : Option Revision} {cat : Catalog} {command : Command} (working : Catalog → Prop)
    (committed : ∀ next, working next → safe next)
    (h : Survives Ddl.execute safe (fun s => working s.working ∧ safe s.durable) (command.runMigrations version)
      (.start cat)) :
    Survives Ddl.execute safe (fun s => working s.durable) (command.script version) (.start cat) := by
  refine survives_append (h.imp (fun _ => id) fun s ends => ?_)
  exact survives_commit ends.2 ⟨committed _ ends.1, ends.1⟩

theorem deploy_whole {cat : Catalog} {command : Command} {post : Session Catalog → Prop}
    (h : Survives Ddl.execute safe post (command.script cat.version) (.start cat)) :
    ∃ last, deploy cat (.alembic command none) = some last.durable ∧ post last := by
  obtain ⟨last, reached, holds⟩ := h.run
  exact ⟨last, by simp [deploy, reached], holds⟩

theorem deploy_cut {cat : Catalog} {command : Command} {post : Session Catalog → Prop}
    (h : Survives Ddl.execute safe post (command.script cat.version) (.start cat)) (n : Nat) :
    ∃ next, deploy cat (.alembic command (some n)) = some next ∧ safe next := by
  obtain ⟨last, reached, holds⟩ := h.cut n
  exact ⟨last.durable, by simp [deploy, reached], holds⟩

/-- An upgrade loses no bet, wherever its process ends. -/
theorem upgrade_deploys {cat : Catalog} (shaped : Shaped cat.version bets cat) (target : Revision) :
    (∃ next, deploy cat (.alembic (.upgrade target) none) = some next ∧
      Shaped (Command.arrives cat.version (.upgrade target)) bets next) ∧
    ∀ n, ∃ next, deploy cat (.alembic (.upgrade target) (some n)) = some next ∧ ∃ v, Shaped v bets next := by
  have begins : Survives Ddl.execute (fun next => ∃ v, Shaped v bets next) _ _ _ :=
    upgrade_survives shaped target fun v _ h => ⟨v, h⟩
  have script := script_survives (Shaped _ bets) (fun next h => ⟨_, h⟩) begins
  obtain ⟨last, deployed, shaped'⟩ := deploy_whole script
  exact ⟨⟨last.durable, deployed, shaped'⟩, deploy_cut script⟩

/-- A downgrade happens as a whole or not at all. -/
theorem downgrade_deploys {cat : Catalog} (shaped : Shaped cat.version bets cat) (target : Option Revision) :
    ∃ next, deploy cat (.alembic (.downgrade target) none) = some next ∧
      Shaped (Command.arrives cat.version (.downgrade target))
        (keeps (Command.arrives cat.version (.downgrade target)) bets) next ∧
      ∀ n, ∃ next', deploy cat (.alembic (.downgrade target) (some n)) = some next' ∧ (next' = cat ∨ next' = next) := by
  have begins : Survives Ddl.execute (· = cat) _ _ _ := downgrade_survives shaped target rfl
  obtain ⟨last, reached, holds, unchanged⟩ := begins.run
  have ends : Survives Ddl.execute (fun next => next = cat ∨ next = last.working)
      (fun s => s.working = last.working ∧ (s.durable = cat ∨ s.durable = last.working))
      (Command.runMigrations cat.version (.downgrade target)) (.start cat) := by
    refine (begins.ends reached).imp (fun _ => Or.inl) ?_
    rintro s rfl
    exact ⟨rfl, Or.inl unchanged⟩
  have script := script_survives (· = last.working) (fun _ => Or.inr) ends
  obtain ⟨final, deployed, same⟩ := deploy_whole script
  exact ⟨last.working, same ▸ deployed, holds, deploy_cut script⟩

/-! ### bet-maker on the last revision -/

def headLabels : List String := initialLabels ++ ["CANCELLED"]

theorem toRow_head (bet : Bet) : bet.toRow headLabels = some (bet.initialCells ++ bet.settledCells) := by
  have ordinal : headLabels.findIdx? (· = bet.status.value) = some bet.status.ordinal := by
    cases bet.status <;> decide
  simp only [Bet.toRow, ordinal]
  rfl

theorem ofRow_head (bet : Bet) : Bet.ofRow headLabels (bet.initialCells ++ bet.settledCells) = some bet := by
  obtain ⟨id, eventId, amount, status, createdAt, updatedAt, settledAt, settledVia⟩ := bet
  have read : headLabels[status.ordinal]?.bind BetStatus.ofValue = some status := by cases status <;> decide
  rcases settledAt with _ | settledAt <;> rcases settledVia with _ | _ | _ <;>
    simp [Bet.ofRow, Bet.initialCells, Bet.settledCells, List.lookup_cons, read, SettledVia.value, SettledVia.ofValue]

theorem head_labels {cat : Catalog} (shaped : Shaped (some head) bets cat) : cat.betStatus = some headLabels := by
  have labels := shaped.labels
  generalize cat.betStatus = betStatus at labels
  cases labels with
  | initial low => exact absurd low (by decide)
  | lower below => exact absurd rfl below
  | upper => rfl

theorem readBets_head {cat : Catalog} (shaped : Shaped (some head) bets cat) : cat.readBets = some bets := by
  have each : (Bet.ofRow headLabels ∘ fun bet : Bet => bet.initialCells ++ bet.settledCells) = pure :=
    funext ofRow_head
  simp only [Catalog.readBets, head_labels shaped, shaped.table]
  change (bets.map fun bet => bet.initialCells ++ bet.settledCells).mapM (Bet.ofRow headLabels) = some bets
  rw [List.mapM_map, each]
  exact List.mapM_pure.trans (congrArg some bets.map_id)

theorem writeBets_head {cat : Catalog} (shaped : Shaped (some head) bets cat) (served : List Bet) :
    cat.writeBets served =
      if Storable served then some ⟨some headLabels, tableAt (some head) served, some head⟩ else none := by
  have each : Bet.toRow headLabels = fun bet => pure (bet.initialCells ++ bet.settledCells) := funext toRow_head
  have rows : served.mapM (Bet.toRow headLabels) = some (served.map fun bet => bet.initialCells ++ bet.settledCells) := by
    rw [each, List.mapM_pure]
    rfl
  have listed : ∀ column ∈ Bet.columns,
      column.1 ∈ (initialColumns ++ [settledAtColumn, settledViaColumn]).map Column.name := by
    decide
  simp only [Catalog.writeBets, head_labels shaped, shaped.table, shaped.stamped, tableAt, head]
  change (served.mapM (Bet.toRow headLabels)).bind _ = _
  rw [rows, Option.bind_some]
  exact if_congr (and_iff_left listed) rfl rfl

theorem written_shaped (served : List Bet) :
    Shaped (some head) served ⟨some headLabels, tableAt (some head) served, some head⟩ := ⟨rfl, .upper, rfl, rfl⟩

theorem scan_storable {db : Database} (readable : Readable db) {scan : List Bet} (scans : Scans db scan) :
    Storable scan := by
  refine ⟨scan_once readable scans, fun bet member => ?_⟩
  obtain ⟨id, found⟩ := (mem_scan scans).mp member
  exact ⟨(readable.stored id bet found).cents, decide_eq_true (readable.stored id bet found).fits⟩

/-! ### The history of a database -/

theorem deploy_shaped {cat next : Catalog} {deployment : Deployment} (shaped : Shaped cat.version bets cat)
    (h : deploy cat deployment = some next) :
    Shaped next.version (match deployment with
      | .alembic _ _ => keeps next.version bets
      | .serve served => served) next := by
  have whole : ∀ {v}, Shaped v bets next → Shaped next.version (keeps next.version bets) next := by
    intro v at_
    rw [at_.stamped, at_.kept]
    exact at_
  rcases deployment with ⟨target | target, _ | n⟩ | served
  · obtain ⟨⟨next', deployed, at_⟩, -⟩ := upgrade_deploys shaped target
    obtain rfl := Option.some.inj (deployed.symm.trans h)
    exact whole at_
  · obtain ⟨next', deployed, v, at_⟩ := (upgrade_deploys shaped target).2 n
    obtain rfl := Option.some.inj (deployed.symm.trans h)
    exact whole at_
  · obtain ⟨next', deployed, at_, -⟩ := downgrade_deploys shaped target
    obtain rfl := Option.some.inj (deployed.symm.trans h)
    rw [at_.stamped]
    exact at_
  · obtain ⟨final, -, at_, cut⟩ := downgrade_deploys shaped target
    obtain ⟨next', deployed, whole_or_not⟩ := cut n
    obtain rfl := Option.some.inj (deployed.symm.trans h)
    rcases whole_or_not with rfl | rfl
    · exact whole shaped
    · rw [at_.stamped]
      exact at_
  · by_cases last : cat.version = some head
    · rw [last] at shaped
      rw [deploy, if_pos last, writeBets_head shaped] at h
      by_cases storable : Storable served
      · rw [if_pos storable] at h
        obtain rfl := Option.some.inj h
        exact written_shaped served
      · rw [if_neg storable] at h
        cases h
    · rw [deploy, if_neg last] at h
      cases h

theorem history_shaped {cat last : Catalog} {history : List Deployment} (shaped : Shaped cat.version bets cat)
    (h : run deploy cat history = some last) : Shaped last.version (kept cat bets history) last := by
  induction history generalizing cat bets with
  | nil =>
    obtain rfl := run_nil.mp h
    exact shaped
  | cons deployment rest ih =>
    obtain ⟨next, first, later⟩ := run_cons.mp h
    have step := deploy_shaped shaped first
    rw [kept, first]
    cases deployment with
    | alembic command cut => exact ih step later
    | serve served => exact ih step later

/-- The schema is the one of the class `Bet`. -/
structure Mapped (cat : Catalog) : Prop where
  version : cat.version = some head
  labels : cat.betStatus = some (BetStatus.all.map BetStatus.value)
  columns : cat.bets.map (fun table => table.columns.map fun column => (column.name, column.type, column.nullable)) =
    some Bet.columns

structure Migrates (cat : Catalog) (bets : List Bet) : Prop where
  arrives : ∀ command, ∃ next, deploy cat (.alembic command none) = some next ∧
    next.version = command.arrives cat.version
  upgradeCut : ∀ target n, ∃ next, deploy cat (.alembic (.upgrade target) (some n)) = some next ∧
    keeps next.version bets = bets
  downgradeCut : ∀ target n, deploy cat (.alembic (.downgrade target) (some n)) = some cat ∨
    deploy cat (.alembic (.downgrade target) (some n)) = deploy cat (.alembic (.downgrade target) none)
  serves : ∃ next, deploy cat (.alembic (.upgrade head) none) = some next ∧ Mapped next ∧ next.readBets = some bets ∧
    deploy next (.alembic (.upgrade head) none) = some next ∧
    ∀ db scan, Readable db → Scans db scan →
      ∃ last, deploy next (.serve scan) = some last ∧ last.readBets = some scan

/-- PostgreSQL refuses no statement of a revision, in whatever state the processes before have left the database.
On the last revision the bets are those that were served last, as far as each version since had a place for them. -/
theorem migrations_keep_bets {history : List Deployment} {cat : Catalog} (reached : run deploy {} history = some cat) :
    Migrates cat (kept {} [] history) := by
  have shaped := history_shaped (⟨rfl, .base, rfl, rfl⟩ : Shaped none [] {}) reached
  refine ⟨fun command => ?_, fun target n => ?_, fun target n => ?_, ?_⟩
  · cases command with
    | upgrade target =>
      obtain ⟨⟨next, deployed, at_⟩, -⟩ := upgrade_deploys shaped target
      exact ⟨next, deployed, at_.stamped⟩
    | downgrade target =>
      obtain ⟨next, deployed, at_, -⟩ := downgrade_deploys shaped target
      exact ⟨next, deployed, at_.stamped⟩
  · obtain ⟨next, deployed, v, at_⟩ := (upgrade_deploys shaped target).2 n
    exact ⟨next, deployed, at_.stamped ▸ at_.kept⟩
  · obtain ⟨next, deployed, -, cut⟩ := downgrade_deploys shaped target
    obtain ⟨next', deployed', rfl | rfl⟩ := cut n
    · exact Or.inl deployed'
    · exact Or.inr (deployed'.trans deployed.symm)
  · obtain ⟨⟨next, deployed, at_⟩, -⟩ := upgrade_deploys shaped head
    have arrived : Command.arrives cat.version (.upgrade head) = some head := by
      rcases cat.version with _ | version
      · rfl
      · cases version <;> rfl
    rw [arrived] at at_
    have mapped : Mapped next := by
      refine ⟨at_.stamped, head_labels at_, ?_⟩
      rw [at_.table]
      rfl
    refine ⟨next, deployed, mapped, readBets_head at_, ?_, fun db scan readable scans => ?_⟩
    · rw [deploy, at_.stamped]
      rfl
    · refine ⟨_, ?_, readBets_head (written_shaped scan)⟩
      rw [deploy, if_pos at_.stamped, writeBets_head at_, if_pos (scan_storable readable scans)]

/-- A cancelled bet, a walk back to the second revision, and an upgrade whose process ends with the new label
added. -/
def walkedBack : List Deployment :=
  [.alembic (.upgrade head) (some 8), .alembic (.upgrade head) none,
   .serve [⟨100, 7, ⟨false, 1000, -2⟩, .cancelled, 10, 30, some 30, some .reconciler⟩],
   .alembic (.downgrade (some .betsSettledColumns)) none, .alembic (.upgrade head) (some 2)]

theorem migrations_keep_bets_walkedBack : ∃ cat next, run deploy {} walkedBack = some cat ∧
    cat.version = some .betsSettledColumns ∧ deploy cat (.alembic (.upgrade head) none) = some next ∧
    next.readBets = some [⟨100, 7, ⟨false, 1000, -2⟩, .cancelled, 10, 30, some 30, some .reconciler⟩] := by
  obtain ⟨cat, reached⟩ := Option.isSome_iff_exists.mp (show (run deploy {} walkedBack).isSome = true by decide)
  have version : (run deploy {} walkedBack).map Catalog.version = some (some .betsSettledColumns) := by decide
  rw [reached] at version
  obtain ⟨next, upgraded, -, read, -⟩ := (migrations_keep_bets reached).serves
  have bets : kept {} [] walkedBack =
      [⟨100, 7, ⟨false, 1000, -2⟩, .cancelled, 10, 30, some 30, some .reconciler⟩] := by decide
  exact ⟨cat, next, reached, Option.some.inj version, upgraded, bets ▸ read⟩

end BetSettlement.BetMaker
