import Mathlib

/-!
# Coroutines that raise

A coroutine that no other one runs beside is a state transformer that returns or raises. What it
changed before it raised stays changed.
-/

namespace BetSettlement.Python
open Std.Do

set_option mvcgen.warning false

/-- The retry decorator is a library's: `attempt n` is the `n`-th attempt, with those that follow it. -/
class Tenacity where
  attempt {ε σ α : Type} (stop : Nat) (again : ε → Bool) (beforeSleep : Nat → ε → σ → σ)
    (fn : EStateM ε σ α) (number : Nat) : EStateM ε σ α
  attempt_eq : ∀ {ε σ α : Type} (stop : Nat) (again : ε → Bool) (beforeSleep : Nat → ε → σ → σ)
    (fn : EStateM ε σ α) (number : Nat) (s : σ), attempt stop again beforeSleep fn number s =
      match fn s with
      | .ok a t => .ok a t
      | .error exc t =>
        if again exc = true ∧ number < stop then
          attempt stop again beforeSleep fn (number + 1) (beforeSleep number exc t)
        else .error exc t

variable {ε σ α : Type}

def attempts (again : ε → Bool) (beforeSleep : Nat → ε → σ → σ) (fn : EStateM ε σ α) (number : Nat) :
    Nat → EStateM ε σ α
  | 0 => fn
  | left + 1 => fun s =>
    match fn s with
    | .ok a t => .ok a t
    | .error exc t =>
      if again exc = true then attempts again beforeSleep fn (number + 1) left (beforeSleep number exc t)
      else .error exc t

instance : Tenacity where
  attempt stop again beforeSleep fn number := attempts again beforeSleep fn number (stop - number)
  attempt_eq stop again beforeSleep fn number s := by
    by_cases left : number < stop
    · obtain ⟨k, rfl⟩ : ∃ k, stop = number + k + 1 := ⟨stop - number - 1, by omega⟩
      rw [show number + k + 1 - number = k + 1 by omega, show number + k + 1 - (number + 1) = k by omega, attempts]
      cases result : fn s <;> simp [left, result]
    · rw [show stop - number = 0 by omega, attempts]
      cases fn s <;> simp [left]

def retry [Tenacity] (stop : Nat) (again : ε → Bool) (beforeSleep : Nat → ε → σ → σ) (fn : EStateM ε σ α) :
    EStateM ε σ α :=
  Tenacity.attempt stop again beforeSleep fn 1

/-- `async with`, for a context manager that does not swallow exceptions. -/
def asyncWith (aenter : EStateM ε σ Unit) (aexit : Option ε → EStateM ε σ Unit) (block : EStateM ε σ α) :
    EStateM ε σ α := do
  aenter
  let result ← tryCatch (block >>= fun a => pure (Except.ok a)) fun exc => pure (Except.error exc)
  match result with
  | .ok a =>
    aexit none
    pure a
  | .error exc =>
    aexit (some exc)
    throw exc

/-- What has been raised, and the state that is left. -/
def raisedOf : EStateM.Result ε σ α → Option (ε × σ)
  | .ok _ _ => none
  | .error exc s => some (exc, s)

theorem raisedOf_some {result : EStateM.Result ε σ α} {exc : ε} {s : σ} :
    raisedOf result = some (exc, s) ↔ result = .error exc s := by
  cases result <;> simp [raisedOf]

/-! ### Rules -/

theorem triple_iff {prog : EStateM ε σ α} {P : σ → Prop} {Q : α → σ → Prop} {E : ε → σ → Prop} :
    ⦃fun s => ⌜P s⌝⦄ prog ⦃post⟨fun a t => ⌜Q a t⌝, fun exc t => ⌜E exc t⌝⟩⦄ ↔
      ∀ s, P s → match prog s with
        | .ok a t => Q a t
        | .error exc t => E exc t := by
  rw [Triple.iff]
  constructor
  · intro h s holds
    have ends := h s holds
    simp only [WP.wp, PredTrans.apply, EStateM.run] at ends
    cases result : prog s <;> simpa [result] using ends
  · intro h s holds
    have ends := h s holds
    simp only [WP.wp, PredTrans.apply, EStateM.run]
    cases result : prog s <;> simpa [result] using ends

theorem get_eq (s : σ) : (get : EStateM ε σ σ) s = .ok s s := rfl

theorem modify_eq (f : σ → σ) (s : σ) : (modify f : EStateM ε σ PUnit) s = .ok ⟨⟩ (f s) := rfl

theorem bind_of_ok {β : Type} {x : EStateM ε σ α} {f : α → EStateM ε σ β} {s t : σ} {a : α} (h : x s = .ok a t) :
    (x >>= f) s = f a t := by
  change EStateM.bind x f s = _
  simp only [EStateM.bind, h]

theorem bind_of_error {β : Type} {x : EStateM ε σ α} {f : α → EStateM ε σ β} {s t : σ} {exc : ε}
    (h : x s = .error exc t) : (x >>= f) s = .error exc t := by
  change EStateM.bind x f s = _
  simp only [EStateM.bind, h]

theorem tryCatch_of_ok {x : EStateM ε σ α} {handle : ε → EStateM ε σ α} {s t : σ} {a : α} (h : x s = .ok a t) :
    tryCatch x handle s = .ok a t := by
  change EStateM.tryCatch x handle s = _
  simp only [EStateM.tryCatch, h]

theorem tryCatch_of_error {x : EStateM ε σ α} {handle : ε → EStateM ε σ α} {s t : σ} {exc : ε}
    (h : x s = .error exc t) : tryCatch x handle s = handle exc t := by
  change EStateM.tryCatch x handle s = _
  simp only [EStateM.tryCatch, h]
  rfl

theorem bind_ok {β : Type} {x : EStateM ε σ α} {f : α → EStateM ε σ β} {s t : σ} {b : β} :
    (x >>= f) s = .ok b t ↔ ∃ a u, x s = .ok a u ∧ f a u = .ok b t := by
  change EStateM.bind x f s = _ ↔ _
  unfold EStateM.bind
  cases x s <;> simp

/-- How the body of a `with` statement has ended. -/
theorem body_ended {block : EStateM ε σ α} {s t : σ} {result : Except ε α} :
    tryCatch (block >>= fun a => pure (Except.ok a)) (fun exc => pure (Except.error exc)) s =
        (.ok result t : EStateM.Result ε σ (Except ε α)) ↔
      match result with
      | .ok a => block s = .ok a t
      | .error exc => block s = .error exc t := by
  change EStateM.tryCatch (EStateM.bind block _) _ s = _ ↔ _
  unfold EStateM.tryCatch EStateM.bind
  cases block s <;> cases result <;>
    simp [pure, EStateM.pure, EStateM.Backtrackable.restore, EStateM.dummyRestore]

section
variable {aenter : EStateM ε σ Unit} {aexit : Option ε → EStateM ε σ Unit} {block : EStateM ε σ α} {s t : σ}

/-- A block is left quietly only where nothing in it, and neither end of it, has raised. -/
theorem asyncWith_ok {a : α} : asyncWith aenter aexit block s = .ok a t ↔
    ∃ u v, aenter s = .ok () u ∧ block u = .ok a v ∧ aexit none v = .ok () t := by
  unfold asyncWith
  simp only [bind_ok, body_ended]
  constructor
  · rintro ⟨_, u, enters, result, v, runs, leaves⟩
    cases result with
    | ok a' =>
      obtain ⟨_, w, exits, same⟩ := bind_ok.mp leaves
      cases same
      exact ⟨u, v, enters, runs, exits⟩
    | error exc =>
      obtain ⟨_, w, -, same⟩ := bind_ok.mp leaves
      cases same
  · rintro ⟨u, v, enters, runs, exits⟩
    exact ⟨(), u, enters, .ok a, v, runs, bind_ok.mpr ⟨(), t, exits, rfl⟩⟩

theorem asyncWith_raises {u v : σ} {exc : ε} (enters : aenter s = .ok () u) (raises : block u = .error exc v)
    (exits : aexit (some exc) v = .ok () t) : asyncWith aenter aexit block s = .error exc t := by
  have ended := (@body_ended ε σ α block u v (.error exc)).mpr raises
  unfold asyncWith
  rw [bind_of_ok enters, bind_of_ok ended]
  exact bind_of_ok exits

end

/-- What holds on entry to the block and on either way out of it. -/
theorem asyncWith_spec {aenter : EStateM ε σ Unit} {aexit : Option ε → EStateM ε σ Unit} {block : EStateM ε σ α}
    {P inside : σ → Prop} {returned Q : α → σ → Prop} {raised E : ε → σ → Prop}
    (enters : ⦃fun s => ⌜P s⌝⦄ aenter ⦃post⟨fun _ s => ⌜inside s⌝, fun exc s => ⌜E exc s⌝⟩⦄)
    (runs : ⦃fun s => ⌜inside s⌝⦄ block ⦃post⟨fun a s => ⌜returned a s⌝, fun exc s => ⌜raised exc s⌝⟩⦄)
    (leaves : ∀ a, ⦃fun s => ⌜returned a s⌝⦄ aexit none ⦃post⟨fun _ s => ⌜Q a s⌝, fun exc s => ⌜E exc s⌝⟩⦄)
    (fails : ∀ exc, ⦃fun s => ⌜raised exc s⌝⦄ aexit (some exc)
      ⦃post⟨fun _ s => ⌜E exc s⌝, fun exc' s => ⌜E exc' s⌝⟩⦄) :
    ⦃fun s => ⌜P s⌝⦄ asyncWith aenter aexit block ⦃post⟨fun a s => ⌜Q a s⌝, fun exc s => ⌜E exc s⌝⟩⦄ := by
  mvcgen [asyncWith, enters, runs, leaves, fails]

/-- `I n` holds before the `n`-th attempt. -/
theorem attempt_spec [Tenacity] {stop : Nat} {again : ε → Bool} {beforeSleep : Nat → ε → σ → σ}
    {fn : EStateM ε σ α} {I : Nat → σ → Prop} {Q : α → σ → Prop} {E : ε → σ → Prop}
    (attempts : ∀ n, ⦃fun s => ⌜I n s⌝⦄ fn ⦃post⟨fun a t => ⌜Q a t⌝, fun exc t =>
      ⌜if again exc = true ∧ n < stop then I (n + 1) (beforeSleep n exc t) else E exc t⌝⟩⦄) (number : Nat) :
    ⦃fun s => ⌜I number s⌝⦄ Tenacity.attempt stop again beforeSleep fn number
      ⦃post⟨fun a t => ⌜Q a t⌝, fun exc t => ⌜E exc t⌝⟩⦄ := by
  rw [triple_iff]
  induction left : stop - number generalizing number with
  | zero =>
    intro s holds
    have ends := triple_iff.mp (attempts number) s holds
    rw [Tenacity.attempt_eq]
    cases result : fn s with
    | ok a t => simpa [result] using ends
    | error exc t =>
      have last : ¬ number < stop := by omega
      simpa [result, last] using ends
  | succ k ih =>
    intro s holds
    have ends := triple_iff.mp (attempts number) s holds
    rw [Tenacity.attempt_eq]
    cases result : fn s with
    | ok a t => simpa [result] using ends
    | error exc t =>
      rw [result] at ends
      by_cases repeats : again exc = true ∧ number < stop
      · simp only [if_pos repeats] at ends ⊢
        exact ih (number + 1) (by omega) _ ends
      · simpa only [if_neg repeats] using ends

/-! ### Functions that raise -/

section
variable {β : Type} {P : ε → Prop}

/-- What is raised satisfies `P`. -/
def Raises (P : ε → Prop) (result : Except ε α) : Prop := ∀ exc, result = .error exc → P exc

theorem raises_ok (a : α) : Raises P (.ok a : Except ε α) := by
  intro exc raised
  cases raised

theorem raises_error {exc : ε} (h : P exc) : Raises P (.error exc : Except ε α) := by
  intro exc' raised
  exact Except.error.inj raised ▸ h

theorem Raises.bind {x : Except ε α} {f : α → Except ε β} (first : Raises P x) (then_ : ∀ a, Raises P (f a)) :
    Raises P (x >>= f) := by
  cases x with
  | ok a => exact then_ a
  | error exc => exact raises_error (first exc rfl)

theorem raises_mapM {f : α → Except ε β} (each : ∀ a, Raises P (f a)) (items : List α) : Raises P (items.mapM f) := by
  induction items with
  | nil => exact raises_ok []
  | cons item rest ih =>
    rw [List.mapM_cons]
    exact (each item).bind fun b => ih.bind fun bs => raises_ok (b :: bs)

end

/-- A comprehension returns what its expression returns for each item, or raises. -/
theorem mapM_eq_some {f : α → Option β} {items : List α} {results : List β} :
    items.mapM f = some results ↔ items.map f = results.map some := by
  induction items generalizing results with
  | nil =>
    rw [List.mapM_nil, List.map_nil, @eq_comm _ [], List.map_eq_nil_iff]
    exact ⟨fun same => (Option.some.inj same).symm, fun same => congrArg some same.symm⟩
  | cons item rest ih =>
    rw [List.mapM_cons, List.map_cons]
    constructor
    · intro mapped
      obtain ⟨result, first, mapped⟩ := Option.bind_eq_some_iff.mp mapped
      obtain ⟨results', others, same⟩ := Option.bind_eq_some_iff.mp mapped
      obtain rfl := Option.some.inj same
      rw [first, ih.mp others, List.map_cons]
    · intro each
      obtain ⟨result, results', rfl, first, others⟩ := List.map_eq_cons_iff.mp each.symm
      simp [← first, ih.mpr others.symm]

end BetSettlement.Python
