import Mathlib.Data.List.Basic

/-!
# Runs of executable machines

`step s a` is `none` when action `a` cannot happen in state `s`. A run folds `step`
over a list of actions, so a schedule is data and an invariant is an induction over it.
-/

namespace BetSettlement.Machine

variable {σ α σ' α' : Type*}

def run (step : σ → α → Option σ) : σ → List α → Option σ
  | s, [] => some s
  | s, a :: rest => (step s a).bind (run step · rest)

theorem run_nil {step : σ → α → Option σ} {s t : σ} : run step s [] = some t ↔ s = t := by
  simp [run]

theorem run_cons {step : σ → α → Option σ} {s t : σ} {a : α} {rest : List α} :
    run step s (a :: rest) = some t ↔ ∃ m, step s a = some m ∧ run step m rest = some t := by
  simp [run, Option.bind_eq_some_iff]

theorem run_append {step : σ → α → Option σ} {s t : σ} {front back : List α} :
    run step s (front ++ back) = some t ↔
      ∃ m, run step s front = some m ∧ run step m back = some t := by
  induction front generalizing s with
  | nil => simp [run]
  | cons a rest ih =>
    simp only [List.cons_append, run_cons, ih]
    constructor
    · rintro ⟨m, first, n, middle, last⟩
      exact ⟨n, ⟨m, first, middle⟩, last⟩
    · rintro ⟨n, ⟨m, first, middle⟩, last⟩
      exact ⟨m, first, n, middle, last⟩

theorem run_snoc {step : σ → α → Option σ} {s t : σ} {front : List α} {a : α} :
    run step s (front ++ [a]) = some t ↔ ∃ m, run step s front = some m ∧ step m a = some t := by
  simp [run_append, run_cons, run_nil]

/-- What each step keeps, a run keeps. -/
theorem run_invariant {step : σ → α → Option σ} {P : σ → Prop}
    (keep : ∀ s a t, P s → step s a = some t → P t) {s t : σ} {acts : List α}
    (start : P s) (h : run step s acts = some t) : P t := by
  induction acts generalizing s with
  | nil => exact run_nil.mp h ▸ start
  | cons a rest ih =>
    obtain ⟨m, first, last⟩ := run_cons.mp h
    exact ih (keep s a m start first) last

/-- `run_invariant` for actions from a restricted alphabet. -/
theorem run_invariant_of {step : σ → α → Option σ} {P : σ → Prop} {allowed : α → Prop}
    (keep : ∀ s a t, allowed a → P s → step s a = some t → P t) {s t : σ} {acts : List α}
    (only : ∀ a ∈ acts, allowed a) (start : P s) (h : run step s acts = some t) : P t := by
  induction acts generalizing s with
  | nil => exact run_nil.mp h ▸ start
  | cons a rest ih =>
    obtain ⟨m, first, last⟩ := run_cons.mp h
    exact ih (fun b hb => only b (List.mem_cons_of_mem _ hb))
      (keep s a m (only a List.mem_cons_self) start first) last

/-- `run_invariant` for properties of the actions so far. -/
theorem run_history {step : σ → α → Option σ} {P : List α → σ → Prop}
    (keep : ∀ front s a t, P front s → step s a = some t → P (front ++ [a]) t) {s t : σ}
    {front acts : List α} (start : P front s) (h : run step s acts = some t) : P (front ++ acts) t := by
  induction acts generalizing s front with
  | nil => simpa using run_nil.mp h ▸ start
  | cons a rest ih =>
    obtain ⟨m, first, last⟩ := run_cons.mp h
    have after := ih (keep front s a m start first) last
    rwa [List.append_assoc, List.singleton_append] at after

/-- A reflexive, transitive relation that holds across each step holds across a run. -/
theorem run_relates {step : σ → α → Option σ} {P : σ → Prop} {R : σ → σ → Prop}
    (keep : ∀ s a t, P s → step s a = some t → P t)
    (refl : ∀ s, R s s) (trans : ∀ s m t, R s m → R m t → R s t)
    (relate : ∀ s a t, P s → step s a = some t → R s t) {s t : σ} {acts : List α}
    (start : P s) (h : run step s acts = some t) : R s t := by
  induction acts generalizing s with
  | nil => exact run_nil.mp h ▸ refl s
  | cons a rest ih =>
    obtain ⟨m, first, last⟩ := run_cons.mp h
    exact trans s m t (relate s a m start first) (ih (keep s a m start first) last)

/-- A rank that the steps of `mine` bring down, and the others do not raise, bounds how many of them there are. -/
theorem run_ranked {step : σ → α → Option σ} {P : σ → Prop} {mine : α → Bool} {rank : σ → Nat}
    (keep : ∀ s a t, P s → step s a = some t → P t)
    (own : ∀ s a t, P s → step s a = some t → mine a = true → rank t < rank s)
    (other : ∀ s a t, P s → step s a = some t → mine a = false → rank t ≤ rank s) {s t : σ} {acts : List α}
    (start : P s) (h : run step s acts = some t) : (acts.filter mine).length + rank t ≤ rank s := by
  induction acts generalizing s with
  | nil =>
    obtain rfl := run_nil.mp h
    simp
  | cons a rest ih =>
    obtain ⟨m, first, last⟩ := run_cons.mp h
    have tail := ih (keep s a m start first) last
    cases turn : mine a with
    | true =>
      have less := own s a m start first turn
      rw [List.filter_cons_of_pos turn, List.length_cons]
      omega
    | false =>
      have same := other s a m start first turn
      rw [List.filter_cons_of_neg (by simp [turn])]
      omega

/-- Where a run loses a property, one of its steps loses it. -/
theorem run_switches {step : σ → α → Option σ} {P : σ → Prop} {s t : σ} {acts : List α}
    (start : P s) (stop : ¬ P t) (h : run step s acts = some t) :
    ∃ front a back m n, acts = front ++ a :: back ∧ run step s front = some m ∧ P m ∧
      step m a = some n ∧ ¬ P n ∧ run step n back = some t := by
  induction acts generalizing s with
  | nil => exact absurd (run_nil.mp h ▸ start) stop
  | cons a rest ih =>
    obtain ⟨m, first, last⟩ := run_cons.mp h
    by_cases holds : P m
    · obtain ⟨front, b, back, u, v, rfl, reach, before, change, after, tail⟩ := ih holds last
      exact ⟨a :: front, b, back, u, v, rfl, run_cons.mpr ⟨m, first, reach⟩, before, change,
        after, tail⟩
    · exact ⟨[], a, rest, s, m, rfl, run_nil.mpr rfl, start, first, holds, last⟩

/-- A machine whose steps project to runs of another projects its runs as well. -/
theorem run_projects {step : σ → α → Option σ} {step' : σ' → α' → Option σ'} (view : σ → σ')
    (project : ∀ s a t, step s a = some t → ∃ acts', run step' (view s) acts' = some (view t))
    {s t : σ} {acts : List α} (h : run step s acts = some t) :
    ∃ acts', run step' (view s) acts' = some (view t) := by
  induction acts generalizing s with
  | nil => exact ⟨[], run_nil.mpr (run_nil.mp h ▸ rfl)⟩
  | cons a rest ih =>
    obtain ⟨m, first, last⟩ := run_cons.mp h
    obtain ⟨front, reach⟩ := project s a m first
    obtain ⟨back, tail⟩ := ih last
    exact ⟨front ++ back, run_append.mpr ⟨view m, reach, tail⟩⟩

/-- A machine whose steps another one can follow, each by a run, is followed in its runs. -/
theorem run_simulates {step : σ → α → Option σ} {step' : σ' → α' → Option σ'} {R : σ → σ' → Prop}
    {allowed : α → Prop} {allowed' : α' → Prop}
    (follow : ∀ s a t s', R s s' → step s a = some t → ∃ acts' t', run step' s' acts' = some t' ∧ R t t' ∧
      (allowed a → ∀ b ∈ acts', allowed' b)) {s t : σ} {s' : σ'} {acts : List α} (start : R s s')
    (h : run step s acts = some t) : ∃ acts' t', run step' s' acts' = some t' ∧ R t t' ∧
      ((∀ a ∈ acts, allowed a) → ∀ b ∈ acts', allowed' b) := by
  induction acts generalizing s s' with
  | nil =>
    obtain rfl := run_nil.mp h
    exact ⟨[], s', run_nil.mpr rfl, start, by simp⟩
  | cons a rest ih =>
    obtain ⟨m, first, last⟩ := run_cons.mp h
    obtain ⟨front, m', reach, related, only⟩ := follow s a m s' start first
    obtain ⟨back, t', tail, ended, only'⟩ := ih related last
    refine ⟨front ++ back, t', run_append.mpr ⟨m', reach, tail⟩, ended, ?_⟩
    intro all b member
    rcases List.mem_append.mp member with early | late
    · exact only (all a List.mem_cons_self) b early
    · exact only' (fun c later => all c (List.mem_cons_of_mem a later)) b late

end BetSettlement.Machine
