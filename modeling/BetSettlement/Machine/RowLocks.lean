import Mathlib.Data.List.AList
import Mathlib.Logic.Function.Basic

/-!
# A table with row locks

Transactions run under READ COMMITTED. Each reads the last committed version of a row unless
it wrote one itself, and a row lock stays with its holder until that transaction ends.
-/

namespace BetSettlement.Machine

variable {κ ρ τ : Type} [DecidableEq κ]

structure Table (κ ρ τ : Type) [DecidableEq κ] where
  rows : AList fun _ : κ => ρ := ∅
  holder : κ → Option τ := fun _ => none
  written : τ → AList fun _ : κ => ρ := fun _ => ∅

/-- What `FOR UPDATE SKIP LOCKED` does with one row. -/
inductive Visit (τ : Type) where
  | taken
  | skipped (holder : τ)
  | dropped

namespace Table

def view (db : Table κ ρ τ) (t : τ) : AList fun _ : κ => ρ := db.written t ∪ db.rows

def read (db : Table κ ρ τ) (t : τ) (k : κ) : Option ρ := (db.view t).lookup k

/-- The keys that match in the snapshot of a statement. -/
def select (db : Table κ ρ τ) (t : τ) (matching : ρ → Bool) : List κ :=
  (db.view t).keys.filter fun k => (db.read t k).any matching

theorem lookup_view (db : Table κ ρ τ) (t : τ) (k : κ) :
    (db.view t).lookup k = ((db.written t).lookup k).or (db.rows.lookup k) := by
  unfold view
  by_cases own : k ∈ db.written t
  · obtain ⟨row, found⟩ := Option.isSome_iff_exists.mp (AList.lookup_isSome.mpr own)
    rw [AList.lookup_union_left own, found, Option.some_or]
  · rw [AList.lookup_union_right own, AList.lookup_eq_none.mpr own, Option.none_or]

theorem read_eq (db : Table κ ρ τ) (t : τ) (k : κ) :
    db.read t k = ((db.written t).lookup k).or (db.rows.lookup k) :=
  db.lookup_view t k

theorem mem_select {db : Table κ ρ τ} {t : τ} {matching : ρ → Bool} {k : κ} :
    k ∈ db.select t matching ↔ ∃ row, db.read t k = some row ∧ matching row = true := by
  rw [select, List.mem_filter, ← AList.mem_keys, ← AList.lookup_isSome]
  change (db.read t k).isSome = true ∧ _ ↔ _
  cases db.read t k <;> simp

theorem select_nodup (db : Table κ ρ τ) (t : τ) (matching : ρ → Bool) : (db.select t matching).Nodup :=
  (AList.keys_nodup _).filter _

def lock (db : Table κ ρ τ) (t : τ) (k : κ) : Table κ ρ τ :=
  { db with holder := Function.update db.holder k (some t) }

@[simp] theorem lock_written (db : Table κ ρ τ) (t : τ) (k : κ) : (db.lock t k).written = db.written := rfl

@[simp] theorem lock_holder (db : Table κ ρ τ) (t : τ) (k key : κ) :
    (db.lock t k).holder key = if key = k then some t else db.holder key := by
  by_cases same : key = k <;> simp [lock, same]

/-- A step of `t` as the other transactions see it. -/
structure Frame (t : τ) (db db' : Table κ ρ τ) : Prop where
  holder : ∀ u, u ≠ t → ∀ k, db'.holder k = some u ↔ db.holder k = some u
  written : ∀ u, u ≠ t → db'.written u = db.written u
  rows : ∀ u, u ≠ t → ∀ k, db.holder k = some u → db'.rows.lookup k = db.rows.lookup k

theorem frame_refl (t : τ) (db : Table κ ρ τ) : Frame t db db :=
  ⟨fun _ _ _ => Iff.rfl, fun _ _ => rfl, fun _ _ _ _ => rfl⟩

variable [DecidableEq τ]

/-- The other transaction that holds the row. -/
def blocker (db : Table κ ρ τ) (t : τ) (k : κ) : Option τ := (db.holder k).filter (· ≠ t)

/-- The condition is checked again, on the version that is the latest now. -/
def visit (db : Table κ ρ τ) (t : τ) (matching : ρ → Bool) (k : κ) : Visit τ :=
  match db.blocker t k with
  | some u => .skipped u
  | none => if (db.read t k).any matching then .taken else .dropped

def put (db : Table κ ρ τ) (t : τ) (k : κ) (row : ρ) : Table κ ρ τ :=
  { db.lock t k with written := Function.update db.written t ((db.written t).insert k row) }

/-- `UPDATE … WHERE key IN (…)`, which waits while another transaction holds one of the rows. -/
def update (db : Table κ ρ τ) (t : τ) (change : ρ → ρ) : List κ → Option (Table κ ρ τ)
  | [] => some db
  | k :: rest =>
    match db.read t k with
    | none => db.update t change rest
    | some row =>
      if (db.blocker t k).isSome then none else (db.put t k (change row)).update t change rest

/-- `INSERT`, which waits for another insert of the key and fails on one that is committed. -/
def insert (db : Table κ ρ τ) (t : τ) (k : κ) (row : ρ) : Option (Table κ ρ τ) :=
  if (db.read t k).isSome ∨ (db.blocker t k).isSome then none else some (db.put t k row)

def abort (db : Table κ ρ τ) (t : τ) : Table κ ρ τ :=
  { db with holder := db.blocker t, written := Function.update db.written t ∅ }

def commit (db : Table κ ρ τ) (t : τ) : Table κ ρ τ := { db.abort t with rows := db.view t }

/-! ### What each operation reads and leaves -/

theorem blocker_some {db : Table κ ρ τ} {t u : τ} {k : κ} :
    db.blocker t k = some u ↔ db.holder k = some u ∧ u ≠ t := by
  simp [blocker, Option.filter_eq_some_iff]

theorem blocker_none {db : Table κ ρ τ} {t : τ} {k : κ} :
    db.blocker t k = none ↔ db.holder k = none ∨ db.holder k = some t := by
  cases held : db.holder k with
  | none => simp [blocker, held]
  | some u => simp [blocker, held, Option.filter_eq_none_iff]

theorem visit_taken {db : Table κ ρ τ} {t : τ} {matching : ρ → Bool} {k : κ} :
    db.visit t matching k = .taken ↔
      db.blocker t k = none ∧ ∃ row, db.read t k = some row ∧ matching row = true := by
  unfold visit
  cases db.blocker t k with
  | some u => simp
  | none => cases db.read t k <;> simp

theorem visit_skipped {db : Table κ ρ τ} {t u : τ} {matching : ρ → Bool} {k : κ} :
    db.visit t matching k = .skipped u ↔ db.blocker t k = some u := by
  unfold visit
  cases db.blocker t k with
  | some v => simp
  | none =>
    simp only [reduceCtorEq, iff_false]
    split <;> simp

theorem visit_dropped {db : Table κ ρ τ} {t : τ} {matching : ρ → Bool} {k : κ} :
    db.visit t matching k = .dropped ↔
      db.blocker t k = none ∧ ∀ row, db.read t k = some row → matching row = false := by
  unfold visit
  cases db.blocker t k with
  | some u => simp
  | none => cases db.read t k <;> simp

@[simp] theorem put_rows (db : Table κ ρ τ) (t : τ) (k : κ) (row : ρ) :
    (db.put t k row).rows = db.rows := rfl

@[simp] theorem put_holder (db : Table κ ρ τ) (t : τ) (k key : κ) (row : ρ) :
    (db.put t k row).holder key = if key = k then some t else db.holder key :=
  db.lock_holder t k key

theorem put_written (db : Table κ ρ τ) (t : τ) (k key : κ) (row : ρ) :
    ((db.put t k row).written t).lookup key = if key = k then some row else (db.written t).lookup key := by
  by_cases same : key = k
  · subst same
    simp [put]
  · simp [put, same, AList.lookup_insert_ne]

theorem put_written_other {db : Table κ ρ τ} {t u : τ} {k : κ} {row : ρ} (other : u ≠ t) :
    (db.put t k row).written u = db.written u := by
  simp [put, other]

@[simp] theorem abort_holder (db : Table κ ρ τ) (t : τ) : (db.abort t).holder = db.blocker t := rfl

@[simp] theorem abort_written (db : Table κ ρ τ) (t : τ) : (db.abort t).written t = ∅ := by
  simp [abort]

theorem abort_written_other {db : Table κ ρ τ} {t u : τ} (other : u ≠ t) :
    (db.abort t).written u = db.written u := by
  simp [abort, other]

@[simp] theorem commit_rows (db : Table κ ρ τ) (t : τ) (k : κ) :
    (db.commit t).rows.lookup k = ((db.written t).lookup k).or (db.rows.lookup k) :=
  db.lookup_view t k

theorem commit_written_other {db : Table κ ρ τ} {t u : τ} (other : u ≠ t) :
    (db.commit t).written u = db.written u :=
  abort_written_other other

/-- What `update` leaves when it need not wait. -/
structure Updates (db : Table κ ρ τ) (t : τ) (change : ρ → ρ) (keys : List κ) (db' : Table κ ρ τ) : Prop where
  free : ∀ k ∈ keys, (db.read t k).isSome → db.blocker t k = none
  rows : db'.rows = db.rows
  holder : ∀ k, db'.holder k = if k ∈ keys ∧ (db.read t k).isSome then some t else db.holder k
  written : ∀ k, (db'.written t).lookup k =
    if k ∈ keys ∧ (db.read t k).isSome then (db.read t k).map change else (db.written t).lookup k
  others : ∀ u, u ≠ t → db'.written u = db.written u

theorem update_updates {db db' : Table κ ρ τ} {t : τ} {change : ρ → ρ} {keys : List κ} (distinct : keys.Nodup)
    (h : db.update t change keys = some db') : Updates db t change keys db' := by
  induction keys generalizing db with
  | nil =>
    obtain rfl := Option.some.inj h
    exact ⟨by simp, rfl, by simp, by simp, fun _ _ => rfl⟩
  | cons k rest ih =>
    obtain ⟨fresh, distinct⟩ := List.nodup_cons.mp distinct
    rw [update] at h
    split at h
    · rename_i missing
      have after := ih distinct h
      refine ⟨fun key member there => ?_, after.rows, fun key => ?_, fun key => ?_, after.others⟩
      · rcases List.mem_cons.mp member with rfl | later
        · simp [missing] at there
        · exact after.free key later there
      · rw [after.holder]
        by_cases same : key = k <;> simp [same, fresh, missing]
      · rw [after.written]
        by_cases same : key = k <;> simp [same, fresh, missing]
    · rename_i row found
      split at h
      · cases h
      · rename_i free
        have after := ih distinct h
        have read : ∀ key, key ≠ k → (db.put t k (change row)).read t key = db.read t key := by
          intro key other
          simp [read_eq, put_written, other]
        refine ⟨fun key member there => ?_, after.rows, fun key => ?_, fun key => ?_, fun u other => ?_⟩
        · rcases List.mem_cons.mp member with rfl | later
          · simpa using free
          · have different : key ≠ k := ne_of_mem_of_not_mem later fresh
            have free' := blocker_none.mp (after.free key later (read key different ▸ there))
            rw [put_holder, if_neg different] at free'
            exact blocker_none.mpr free'
        · rw [after.holder]
          by_cases same : key = k
          · subst same
            simp [fresh, found]
          · simp [same, read key same]
        · rw [after.written]
          by_cases same : key = k
          · subst same
            simp [fresh, found, put_written]
          · simp [same, read key same, put_written]
        · rw [after.others u other, put_written_other other]

/-- Rows that are free or its own never make a transaction wait. -/
theorem update_isSome {db : Table κ ρ τ} {t : τ} {change : ρ → ρ} {keys : List κ}
    (free : ∀ k ∈ keys, db.blocker t k = none) : (db.update t change keys).isSome = true := by
  induction keys generalizing db with
  | nil => rfl
  | cons k rest ih =>
    rw [update]
    split
    · exact ih fun key member => free key (List.mem_cons_of_mem _ member)
    · rw [free k List.mem_cons_self]
      apply ih
      intro key member
      rw [blocker_none, put_holder]
      split
      · exact Or.inr rfl
      · exact blocker_none.mp (free key (List.mem_cons_of_mem _ member))

theorem insert_ok {db db' : Table κ ρ τ} {t : τ} {k : κ} {row : ρ} (h : db.insert t k row = some db') :
    db.read t k = none ∧ db.blocker t k = none ∧ db' = db.put t k row := by
  unfold insert at h
  split at h
  · cases h
  · rename_i fresh
    push Not at fresh
    exact ⟨by simpa using fresh.1, by simpa using fresh.2, (Option.some.inj h).symm⟩

/-! ### Steps leave the other transactions alone -/

theorem holder_frame {db : Table κ ρ τ} {t u : τ} {k : κ} (free : db.blocker t k = none) (other : u ≠ t) :
    some t = some u ↔ db.holder k = some u := by
  constructor
  · intro same
    exact absurd (Option.some.inj same).symm other
  · intro held
    have blocked := blocker_some.mpr ⟨held, other⟩
    rw [free] at blocked
    cases blocked

theorem lock_frame {db : Table κ ρ τ} {t : τ} {k : κ} (free : db.blocker t k = none) :
    Frame t db (db.lock t k) where
  holder u other key := by
    rw [lock_holder]
    split
    · rename_i same
      exact same ▸ holder_frame free other
    · rfl
  written _ _ := rfl
  rows _ _ _ _ := rfl

theorem put_frame {db : Table κ ρ τ} {t : τ} {k : κ} {row : ρ} (free : db.blocker t k = none) :
    Frame t db (db.put t k row) where
  holder := (lock_frame free).holder
  written _ other := put_written_other other
  rows _ _ _ _ := rfl

theorem Updates.frame {db db' : Table κ ρ τ} {t : τ} {change : ρ → ρ} {keys : List κ}
    (h : Updates db t change keys db') : Frame t db db' where
  holder u other k := by
    rw [h.holder]
    split
    · rename_i touched
      exact holder_frame (h.free k touched.1 touched.2) other
    · rfl
  written := h.others
  rows _ _ k _ := by rw [h.rows]

theorem abort_frame (db : Table κ ρ τ) (t : τ) : Frame t db (db.abort t) where
  holder u other k := by simp [blocker_some, other]
  written _ other := abort_written_other other
  rows _ _ _ _ := rfl

/-- A commit reaches only rows that its transaction has locked. -/
theorem commit_frame {db : Table κ ρ τ} {t : τ}
    (owned : ∀ k row, (db.written t).lookup k = some row → db.holder k = some t) : Frame t db (db.commit t) where
  holder := (abort_frame db t).holder
  written _ other := commit_written_other other
  rows u other k held := by
    rw [commit_rows]
    cases own : (db.written t).lookup k with
    | none => rfl
    | some row =>
      have mine := owned k row own
      rw [held] at mine
      exact absurd (Option.some.inj mine) other

end Table

end BetSettlement.Machine
