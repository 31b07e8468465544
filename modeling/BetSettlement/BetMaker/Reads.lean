import BetSettlement.BetMaker.Crash
import BetSettlement.BetMaker.Settlement

/-!
# What clients read

A request for bets reads what is committed. `POST /bet` answers with the row that its transaction has
committed, or with what the checks before it raised.
-/

namespace BetSettlement.BetMaker
open Python Machine

/-- What the server finds in the table, in the order in which it comes upon the rows. -/
def Scans (db : Database) (scan : List Bet) : Prop := scan.Perm (db.table.rows.entries.map Sigma.snd)

/-- `ORDER BY created_at DESC`. -/
def listBets (scan : List Bet) : List BetRead :=
  (scan.mergeSort fun bet other => other.createdAt ≤ bet.createdAt).map BetRead.modelValidate

def getBetById (db : Database) (betId : UUID) : Option BetRead :=
  (db.table.rows.lookup betId).map BetRead.modelValidate

inductive Body where
  | bet (read : BetRead)
  | bets (reads : List BetRead)
  | detail (text : String)
  | plain (text : String)
  deriving DecidableEq

structure Answer where
  statusCode : Nat
  content : Body
  deriving DecidableEq

def getBets (scan : List Bet) : Answer := ⟨200, .bets (listBets scan)⟩

def getBet (db : Database) (betId : UUID) : Answer :=
  match getBetById db betId with
  | none => ⟨404, .detail ("bet " ++ uuidText betId ++ " not found")⟩
  | some bet => ⟨200, .bet bet⟩

def internalServerError : Answer := ⟨500, .plain "Internal Server Error"⟩

/-- What `POST /bet` answers where `place_bet` raises. -/
def PlaceBetError.answer (eventId : UUID) : PlaceBetError → Answer
  | .lineProviderUnavailable => ⟨503, .detail "event validation unavailable: line-provider unreachable"⟩
  | .eventNotBettable reason =>
    ⟨422, .detail ("event " ++ uuidText eventId ++ " is not bettable: " ++ reason)⟩
  | .typeError => internalServerError

/-- The answer to request `p`, which asked to bet on the event, once there is one. -/
def Service.postBet [Pydantic] (s : Service) (p : Nat) (eventId : UUID) : Option Answer :=
  match s.placing p with
  | .raised error => some (error.answer eventId)
  | .opened t =>
    match s.db.slots t with
    | .committed tx => tx.betRead.map fun read => ⟨201, .bet read⟩
    | .aborted _ => some internalServerError
    | _ => none
  | _ => none

/-! ### The rows behind the answers -/

/-- A row under its key, with the two decimal places that `quantize_amount` leaves. -/
structure Stored (id : UUID) (bet : Bet) : Prop where
  key : bet.id = id
  cents : bet.amount.exponent = -2
  fits : bet.amount.digits < 10 ^ 12

theorem create_stored {id eventId : UUID} {amount : Decimal} {now : Instant} {bet : Bet}
    (h : Bet.create id eventId amount now = some bet) : Stored id bet := by
  unfold Bet.create at h
  split at h
  · cases h
  · rename_i quantized rounds
    split at h
    · rename_i fits
      obtain rfl := Option.some.inj h
      obtain ⟨rfl, -⟩ := Decimal.quantize_ok Decimal.inRange_cents rounds
      exact ⟨rfl, Decimal.rescale_exponent _ _ _, of_decide_eq_true fits⟩
    · cases h

/-- What is committed, and what the answers of committed requests said of it. -/
structure Readable (db : Database) : Prop where
  stored : ∀ id bet, db.table.rows.lookup id = some bet → Stored id bet
  placed : ∀ t tx bet, db.slots t = .committed tx → tx.phase = .inserted bet →
    ∃ bet', db.table.rows.lookup bet.id = some bet' ∧ bet.Later bet'

theorem start_readable : Readable (Database.start ∅) where
  stored id bet found := by cases found
  placed t tx bet here := by cases here

theorem commit_placed {db db' : Database} {t : TxId} {tx : Transaction} {bet : Bet} (inv : Inv db)
    (here : db.slots t = .active tx) (phase : tx.phase = .inserted bet) (h : step db (.commit t) = some db') :
    db'.table.rows.lookup bet.id = some bet := by
  cases step_moves h with
  | commit here' returned =>
    obtain rfl := Slot.active.inj (here.symm.trans here')
    have version : tx.version db.table.rows bet.id = some bet := by simp [Transaction.version, phase]
    change (db.table.commit t).rows.lookup bet.id = some bet
    rw [Table.commit_rows, (inv.owns t tx here).written, version, Option.some_or]

theorem readable_step {db db' : Database} {action : Action} (inv : Inv db) (h : Readable db)
    (next : step db action = some db') : Readable db' where
  stored id bet found := by
    cases row_step inv next id with
    | kept same => exact h.stored id bet (same.symm.trans found)
    | settled commits here settles member before event pending row =>
      obtain rfl := Option.some.inj (row.symm.trans found)
      exact ⟨(h.stored id _ before).key, (h.stored id _ before).cents, (h.stored id _ before).fits⟩
    | placed commits here phase call create absent row =>
      obtain rfl := Option.some.inj (row.symm.trans found)
      exact create_stored create
  placed t tx bet here phase := by
    rcases committed_step next here with before | ⟨rfl, active, -⟩
    · obtain ⟨bet', found, grown⟩ := h.placed t tx bet before phase
      obtain ⟨bet'', found', grown'⟩ := (step_later inv next).rows bet.id bet' found
      exact ⟨bet'', found', grown.trans grown'⟩
    · exact ⟨bet, commit_placed inv active phase next, .refl bet⟩

theorem sever_readable {db : Database} (h : Readable db) : Readable db.sever where
  stored := h.stored
  placed t tx bet here phase := by
    refine h.placed t tx bet ?_ phase
    change (db.slots t).severed = .committed tx at here
    cases slot : db.slots t with
    | unused | active | aborted => simp [slot, Slot.severed] at here
    | committed tx' => simpa [slot, Slot.severed] using here

/-! ### The list and its members -/

theorem mem_scan {db : Database} {scan : List Bet} (scans : Scans db scan) {bet : Bet} :
    bet ∈ scan ↔ ∃ id, db.table.rows.lookup id = some bet := by
  rw [scans.mem_iff, List.mem_map]
  constructor
  · rintro ⟨⟨id, bet⟩, member, rfl⟩
    exact ⟨id, AList.mem_lookup_iff.mpr member⟩
  · rintro ⟨id, found⟩
    exact ⟨⟨id, bet⟩, AList.mem_lookup_iff.mp found, rfl⟩

theorem mem_listBets {db : Database} {scan : List Bet} (scans : Scans db scan) {read : BetRead} :
    read ∈ listBets scan ↔ ∃ id bet, db.table.rows.lookup id = some bet ∧ BetRead.modelValidate bet = read := by
  simp only [listBets, List.mem_map, List.mem_mergeSort, mem_scan scans]
  constructor
  · rintro ⟨bet, ⟨id, found⟩, same⟩
    exact ⟨id, bet, found, same⟩
  · rintro ⟨id, bet, found, same⟩
    exact ⟨bet, ⟨id, found⟩, same⟩

/-- What the routes say about the bets fits together. -/
structure Consistent (db : Database) (reads : List BetRead) : Prop where
  newestFirst : reads.Pairwise fun read older => older.createdAt ≤ read.createdAt
  once : (reads.map BetRead.id).Nodup
  single : ∀ betId read, getBet db betId = ⟨200, .bet read⟩ ↔ read ∈ reads ∧ read.id = betId
  missing : ∀ betId, (getBet db betId).statusCode = 404 ↔ ∀ read ∈ reads, read.id ≠ betId
  cents : ∀ read ∈ reads, read.amount.exponent = -2 ∧ read.amount.digits < 10 ^ 12

theorem listBets_newestFirst (scan : List Bet) :
    (listBets scan).Pairwise fun read older => older.createdAt ≤ read.createdAt := by
  have sorted : (scan.mergeSort fun bet other => decide (other.createdAt ≤ bet.createdAt)).Pairwise
      fun bet other => decide (other.createdAt ≤ bet.createdAt) := by
    apply List.pairwise_mergeSort
    · intro a b c first last
      simp only [decide_eq_true_eq] at first last ⊢
      exact last.trans first
    · intro a b
      simp only [Bool.or_eq_true, decide_eq_true_eq]
      exact le_total _ _
  refine List.pairwise_map.mpr (sorted.imp fun ordered => ?_)
  exact of_decide_eq_true ordered

theorem scan_once {db : Database} (readable : Readable db) {scan : List Bet} (scans : Scans db scan) :
    (scan.map Bet.id).Nodup := by
  have keys : (db.table.rows.entries.map Sigma.snd).map Bet.id = db.table.rows.keys := by
    rw [List.map_map, AList.keys, List.keys]
    refine List.map_congr_left fun row member => ?_
    exact (readable.stored row.1 row.2 (AList.mem_lookup_iff.mpr member)).key
  rw [(scans.map Bet.id).nodup_iff, keys]
  exact db.table.rows.nodupKeys

theorem listBets_once {db : Database} (readable : Readable db) {scan : List Bet} (scans : Scans db scan) :
    ((listBets scan).map BetRead.id).Nodup := by
  have ids : (listBets scan).map BetRead.id =
      (scan.mergeSort fun bet other => other.createdAt ≤ bet.createdAt).map Bet.id := by
    rw [listBets, List.map_map]
    rfl
  rw [ids, ((List.mergeSort_perm scan _).map Bet.id).nodup_iff]
  exact scan_once readable scans

theorem getBet_read {db : Database} {betId : UUID} {read : BetRead} :
    getBet db betId = ⟨200, .bet read⟩ ↔ getBetById db betId = some read := by
  unfold getBet
  cases getBetById db betId <;> simp

theorem getBet_missing {db : Database} {betId : UUID} :
    (getBet db betId).statusCode = 404 ↔ getBetById db betId = none := by
  unfold getBet
  cases getBetById db betId <;> simp

theorem getBetById_listed {db : Database} (readable : Readable db) {scan : List Bet} (scans : Scans db scan)
    {betId : UUID} {read : BetRead} : getBetById db betId = some read ↔ read ∈ listBets scan ∧ read.id = betId := by
  rw [getBetById, Option.map_eq_some_iff, mem_listBets scans]
  constructor
  · rintro ⟨bet, found, rfl⟩
    exact ⟨⟨betId, bet, found, rfl⟩, (readable.stored betId bet found).key⟩
  · rintro ⟨⟨id, bet, found, rfl⟩, same⟩
    obtain rfl : id = betId := (readable.stored id bet found).key.symm.trans same
    exact ⟨bet, found, rfl⟩

theorem readable_consistent {db : Database} (readable : Readable db) {scan : List Bet} (scans : Scans db scan) :
    Consistent db (listBets scan) where
  newestFirst := listBets_newestFirst scan
  once := listBets_once readable scans
  single betId read := getBet_read.trans (getBetById_listed readable scans)
  missing betId := by
    rw [getBet_missing, Option.eq_none_iff_forall_ne_some]
    constructor
    · intro absent read listed same
      exact absent read ((getBetById_listed readable scans).mpr ⟨listed, same⟩)
    · intro apart read found
      obtain ⟨listed, same⟩ := (getBetById_listed readable scans).mp found
      exact apart read listed same
  cents read listed := by
    obtain ⟨id, bet, found, rfl⟩ := (mem_listBets scans).mp listed
    exact ⟨(readable.stored id bet found).cents, (readable.stored id bet found).fits⟩

/-! ### One answer after another -/

/-- What a later answer may say of the same bet. -/
structure BetRead.Later (read read' : BetRead) : Prop where
  id : read'.id = read.id
  eventId : read'.eventId = read.eventId
  amount : read'.amount = read.amount
  createdAt : read'.createdAt = read.createdAt
  decided : read.status ≠ .pending → read' = read

theorem modelValidate_later {bet bet' : Bet} (later : bet.Later bet') :
    (BetRead.modelValidate bet).Later (BetRead.modelValidate bet') :=
  ⟨later.id, later.eventId, later.amount, later.createdAt, fun decided => by rw [later.decided decided]⟩

theorem listed_later {db db' : Database} {scan scan' : List Bet} (scans : Scans db scan) (scans' : Scans db' scan')
    (later : db.Later db') : ∀ read ∈ listBets scan, ∃ read' ∈ listBets scan', read.Later read' := by
  intro read listed
  obtain ⟨id, bet, found, rfl⟩ := (mem_listBets scans).mp listed
  obtain ⟨bet', found', grown⟩ := later.rows id bet found
  exact ⟨_, (mem_listBets scans').mpr ⟨id, bet', found', rfl⟩, modelValidate_later grown⟩

section
variable [Pydantic]

/-- A bet that a request has been told of can be read from then on. -/
theorem posted_later {s : Service} (readable : Readable s.db) {db' : Database} (later : s.db.Later db')
    {scan' : List Bet} (scans' : Scans db' scan') {p : Nat} {eventId : UUID} {read : BetRead}
    (posted : s.postBet p eventId = some ⟨201, .bet read⟩) : ∃ read' ∈ listBets scan', read.Later read' := by
  unfold Service.postBet at posted
  split at posted
  · rename_i error raised
    cases error <;> simp [PlaceBetError.answer, internalServerError] at posted
  · rename_i t opened
    split at posted
    · rename_i tx committed
      obtain ⟨read₀, returned, same⟩ := Option.map_eq_some_iff.mp posted
      obtain rfl : read₀ = read := by simpa using same
      unfold Transaction.betRead at returned
      split at returned
      · rename_i bet phase
        obtain rfl := Option.some.inj returned
        obtain ⟨bet', found, grown⟩ := readable.placed t tx bet committed phase
        obtain ⟨bet'', found', grown'⟩ := later.rows bet.id bet' found
        exact ⟨_, (mem_listBets scans').mpr ⟨bet.id, bet'', found', rfl⟩, modelValidate_later (grown.trans grown')⟩
      · cases returned
    · simp [internalServerError] at posted
    · cases posted
  · cases posted

end

end BetSettlement.BetMaker
