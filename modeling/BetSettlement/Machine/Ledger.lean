import BetSettlement.Machine.Runs
import Mathlib.Logic.Function.Basic
import Mathlib.Data.List.Pairwise

/-!
# A ledger of items that close once

Each entry opens one item or closes several together. Nothing opens again.
-/

namespace BetSettlement.Machine

variable {κ ι : Type*}

inductive Entry (κ ι : Type*) where
  | opens (k : κ) (item : ι)
  | closes (keys : List κ) (change : ι → ι)

def Entry.closed : Entry κ ι → List κ
  | .opens _ _ => []
  | .closes keys _ => keys

def Closed (isOpen : ι → Bool) (ledger : κ → Option ι) (k : κ) : Prop :=
  ∃ item, ledger k = some item ∧ isOpen item = false

variable [DecidableEq κ]

def post (isOpen : ι → Bool) (ledger : κ → Option ι) : Entry κ ι → Option (κ → Option ι)
  | .opens k item =>
    if ledger k = none ∧ isOpen item = true then some (Function.update ledger k (some item)) else none
  | .closes keys change =>
    if ∀ k ∈ keys, (ledger k).any fun item => isOpen item && !isOpen (change item) then
      some fun k => if k ∈ keys then (ledger k).map change else ledger k
    else none

/-- What an entry does to one key. -/
inductive Turn (isOpen : ι → Bool) (ledger : κ → Option ι) (k : κ) : Entry κ ι → Option ι → Prop
  | kept {entry} (apart : k ∉ entry.closed) : Turn isOpen ledger k entry (ledger k)
  | opened {item} (absent : ledger k = none) (fresh : isOpen item = true) :
      Turn isOpen ledger k (.opens k item) (some item)
  | closed {keys change item} (member : k ∈ keys) (found : ledger k = some item) (before : isOpen item = true)
      (after : isOpen (change item) = false) : Turn isOpen ledger k (.closes keys change) (some (change item))

variable {isOpen : ι → Bool} {ledger ledger' : κ → Option ι} {entry : Entry κ ι} {entries : List (Entry κ ι)}

theorem post_turn (h : post isOpen ledger entry = some ledger') (k : κ) : Turn isOpen ledger k entry (ledger' k) := by
  cases entry with
  | opens key item =>
    simp only [post] at h
    split at h
    · rename_i allowed
      obtain rfl := Option.some.inj h
      by_cases same : k = key
      · subst same
        rw [Function.update_self]
        exact .opened allowed.1 allowed.2
      · rw [Function.update_of_ne same]
        exact .kept List.not_mem_nil
    · cases h
  | closes keys change =>
    simp only [post] at h
    split at h
    · rename_i allowed
      obtain rfl := Option.some.inj h
      change Turn isOpen ledger k _ (if k ∈ keys then (ledger k).map change else ledger k)
      by_cases member : k ∈ keys
      · obtain ⟨item, found, turns⟩ := (Option.any_eq_true _ _).mp (allowed k member)
        obtain ⟨before, after⟩ := Bool.and_eq_true_iff.mp turns
        rw [if_pos member, found]
        exact .closed member found before (by simpa using after)
      · rw [if_neg member]
        exact .kept member
    · cases h

theorem post_closed (h : post isOpen ledger entry = some ledger') {k : κ} {item : ι} (found : ledger k = some item)
    (shut : isOpen item = false) : ledger' k = some item := by
  have turn := post_turn h k
  generalize ledger' k = after at turn
  cases turn with
  | kept apart => exact found
  | opened absent fresh =>
    rw [absent] at found
    cases found
  | closed member found' before after =>
    obtain rfl := Option.some.inj (found.symm.trans found')
    rw [shut] at before
    cases before

theorem post_closes (h : post isOpen ledger entry = some ledger') (k : κ) :
    Closed isOpen ledger' k ↔ Closed isOpen ledger k ∨ k ∈ entry.closed := by
  constructor
  · rintro ⟨item, found, shut⟩
    have turn := post_turn h k
    rw [found] at turn
    generalize same : some item = after at turn
    cases turn with
    | kept apart => exact Or.inl ⟨item, same.symm, shut⟩
    | opened absent fresh =>
      obtain rfl := Option.some.inj same
      rw [shut] at fresh
      cases fresh
    | closed member => exact Or.inr member
  · rintro (⟨item, found, shut⟩ | member)
    · exact ⟨item, post_closed h found shut, shut⟩
    · have turn := post_turn h k
      generalize same : ledger' k = after at turn
      cases turn with
      | kept apart => exact absurd member apart
      | opened => cases member
      | closed _ _ _ after => exact ⟨_, same, after⟩

theorem post_unclosed (h : post isOpen ledger entry = some ledger') {k : κ} (member : k ∈ entry.closed) :
    ¬ Closed isOpen ledger k := by
  rintro ⟨item, found, shut⟩
  have turn := post_turn h k
  generalize ledger' k = after at turn
  cases turn with
  | kept apart => exact apart member
  | opened => cases member
  | closed _ found' before =>
    obtain rfl := Option.some.inj (found.symm.trans found')
    rw [shut] at before
    cases before

/-- A closed item stays as it is. -/
theorem run_closed (h : run (post isOpen) ledger entries = some ledger') {k : κ} {item : ι}
    (found : ledger k = some item) (shut : isOpen item = false) : ledger' k = some item :=
  run_invariant (P := fun ledger => ledger k = some item) (fun _ _ _ found next => post_closed next found shut) found h

/-- The entries account for every item that is closed. -/
theorem run_closes (h : run (post isOpen) ledger entries = some ledger') (k : κ) :
    Closed isOpen ledger' k ↔ Closed isOpen ledger k ∨ ∃ entry ∈ entries, k ∈ entry.closed := by
  induction entries generalizing ledger with
  | nil => simp [run_nil.mp h]
  | cons entry rest ih =>
    obtain ⟨middle, first, last⟩ := run_cons.mp h
    rw [ih last, post_closes first, or_assoc]
    simp

/-- No item is closed by two entries. -/
theorem run_disjoint (h : run (post isOpen) ledger entries = some ledger') :
    entries.Pairwise fun entry later => List.Disjoint entry.closed later.closed := by
  induction entries generalizing ledger with
  | nil => exact List.Pairwise.nil
  | cons entry rest ih =>
    obtain ⟨middle, first, last⟩ := run_cons.mp h
    refine List.Pairwise.cons (fun later member k closed again => ?_) (ih last)
    have shut := (post_closes first k).mpr (Or.inr closed)
    obtain ⟨front, back, rfl⟩ := List.append_of_mem member
    obtain ⟨before, prior, rest⟩ := run_append.mp last
    obtain ⟨after, next, -⟩ := run_cons.mp rest
    exact post_unclosed next again ((run_closes prior k).mpr (Or.inl shut))

/-- What opened items satisfy, and closing keeps, holds of every item. -/
theorem run_items {P : κ → ι → Prop} (opens : ∀ k item, .opens k item ∈ entries → P k item)
    (closes : ∀ keys change, .closes keys change ∈ entries → ∀ k item, P k item → P k (change item))
    (start : ∀ k item, ledger k = some item → P k item) (h : run (post isOpen) ledger entries = some ledger') (k : κ)
    (item : ι) (found : ledger' k = some item) : P k item := by
  have keep : ∀ before entry after, entry ∈ entries → (∀ k item, before k = some item → P k item) →
      post isOpen before entry = some after → ∀ k item, after k = some item → P k item := by
    intro before entry after listed all next k item found
    have turn := post_turn next k
    rw [found] at turn
    generalize same : some item = value at turn
    cases turn with
    | kept apart => exact all k item same.symm
    | opened absent fresh =>
      obtain rfl := Option.some.inj same
      exact opens k item listed
    | closed member held =>
      obtain rfl := Option.some.inj same
      exact closes _ _ listed k _ (all k _ held)
  exact run_invariant_of keep (fun _ => id) start h k item found

end BetSettlement.Machine
