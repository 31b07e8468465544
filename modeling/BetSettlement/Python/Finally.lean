import BetSettlement.Python.Exceptions

/-!
# Blocks with a finalizer

A process closes what it holds in `finally` clauses, which run however the block before them has ended. What
a finalizer raises takes the place of what the block has raised.
-/

namespace BetSettlement.Python

variable {ε σ α ρ : Type}

/-- The state in which a coroutine ends, however it ends. -/
def stateOf : EStateM.Result ε σ α → σ
  | .ok _ s | .error _ s => s

def exceptionOf : EStateM.Result ε σ α → Option ε
  | .ok _ _ => none
  | .error exc _ => some exc

/-- An awaited call that raises, or does not. -/
def awaits (outcome : Option ε) : EStateM ε σ Unit :=
  match outcome with
  | none => pure ()
  | some exc => throw exc

/-- What a process has of resources outside of it, the last one first. `attempts` counts its tries to reach them,
and `served` that it has got to its `yield`. -/
structure Process (ρ : Type) where
  held : List ρ := []
  closed : List ρ := []
  attempts : Nat := 0
  served : Bool := false

def acquire (resource : ρ) : EStateM ε (Process ρ) Unit :=
  modify fun p => { p with held := resource :: p.held }

/-- A resource is given up even where its closing raises. -/
def close [DecidableEq ρ] (outcome : Option ε) (resource : ρ) : EStateM ε (Process ρ) Unit := do
  modify fun p => { p with held := p.held.erase resource, closed := p.closed ++ [resource] }
  awaits outcome

def yields (outcome : Option ε) : EStateM ε (Process ρ) Unit := do
  modify fun p => { p with served := true }
  awaits outcome

/-! ### Rules -/

theorem awaits_none (s : σ) : (awaits none : EStateM ε σ Unit) s = .ok () s := rfl

theorem awaits_some (exc : ε) (s : σ) : (awaits (some exc) : EStateM ε σ Unit) s = .error exc s := rfl

theorem awaits_stateOf (outcome : Option ε) (s : σ) : stateOf ((awaits outcome : EStateM ε σ Unit) s) = s := by
  cases outcome <;> rfl

theorem awaits_exceptionOf (outcome : Option ε) (s : σ) :
    exceptionOf ((awaits outcome : EStateM ε σ Unit) s) = outcome := by
  cases outcome <;> rfl

theorem awaits_bind (outcome : Option ε) (f : Unit → EStateM ε σ α) (s : σ) :
    (awaits outcome >>= f) s =
      match outcome with
      | none => f () s
      | some exc => .error exc s := by
  cases outcome with
  | none => exact bind_of_ok (awaits_none s)
  | some exc => exact bind_of_error (awaits_some exc s)

theorem acquire_bind (resource : ρ) (f : Unit → EStateM ε (Process ρ) α) (p : Process ρ) :
    (acquire resource >>= f) p = f () { p with held := resource :: p.held } :=
  bind_of_ok (modify_eq _ p)

theorem tryFinally_eq (block : EStateM ε σ α) (finalizer : EStateM ε σ Unit) (s : σ) :
    tryFinally block finalizer s =
      match block s with
      | .ok a t =>
        match finalizer t with
        | .ok _ u => .ok a u
        | .error exc u => .error exc u
      | .error exc t =>
        match finalizer t with
        | .ok _ u => .error exc u
        | .error exc' u => .error exc' u := by
  change Functor.map Prod.fst (tryFinally' block fun _ => finalizer) s = _
  simp only [tryFinally', Functor.map, EStateM.map]
  cases block s with
  | ok a t =>
    dsimp only
    cases finalizer t <;> rfl
  | error exc t =>
    dsimp only
    cases finalizer t <;> rfl

theorem tryFinally_stateOf (block : EStateM ε σ α) (finalizer : EStateM ε σ Unit) (s : σ) :
    stateOf (tryFinally block finalizer s) = stateOf (finalizer (stateOf (block s))) := by
  rw [tryFinally_eq]
  cases block s with
  | ok a t => cases closes : finalizer t <;> simp [stateOf, closes]
  | error exc t => cases closes : finalizer t <;> simp [stateOf, closes]

/-- The last exception is the one that is raised. -/
theorem tryFinally_exceptionOf (block : EStateM ε σ α) (finalizer : EStateM ε σ Unit) (s : σ) :
    exceptionOf (tryFinally block finalizer s) =
      (exceptionOf (finalizer (stateOf (block s)))).or (exceptionOf (block s)) := by
  rw [tryFinally_eq]
  cases block s with
  | ok a t => cases closes : finalizer t <;> simp [stateOf, exceptionOf, closes]
  | error exc t => cases closes : finalizer t <;> simp [stateOf, exceptionOf, closes]

section
variable [DecidableEq ρ] (outcome : Option ε) (resource : ρ) (p : Process ρ)

theorem close_stateOf : stateOf (close outcome resource p) =
    { p with held := p.held.erase resource, closed := p.closed ++ [resource] } := by
  unfold close
  rw [bind_of_ok (modify_eq _ p), awaits_stateOf]

theorem close_exceptionOf : exceptionOf (close outcome resource p) = outcome := by
  unfold close
  rw [bind_of_ok (modify_eq _ p), awaits_exceptionOf]

end

theorem yields_stateOf (outcome : Option ε) (p : Process ρ) : stateOf (yields outcome p) = { p with served := true } := by
  unfold yields
  rw [bind_of_ok (modify_eq _ p), awaits_stateOf]

theorem yields_exceptionOf (outcome : Option ε) (p : Process ρ) : exceptionOf (yields outcome p) = outcome := by
  unfold yields
  rw [bind_of_ok (modify_eq _ p), awaits_exceptionOf]

/-! ### What a coroutine leaves alone -/

/-- However the coroutine ends, it leaves what `view` sees of the state as it was. -/
def Leaves {β : Type} (view : σ → β) (fn : EStateM ε σ α) : Prop := ∀ s, view (stateOf (fn s)) = view s

section
variable {β γ : Type} {view : σ → γ}

theorem leaves_pure (a : α) : Leaves view (pure a : EStateM ε σ α) := fun _ => rfl

theorem leaves_throw (exc : ε) : Leaves view (throw exc : EStateM ε σ α) := fun _ => rfl

theorem Leaves.bind {x : EStateM ε σ α} {f : α → EStateM ε σ β} (first : Leaves view x)
    (then_ : ∀ a, Leaves view (f a)) : Leaves view (x >>= f) := by
  intro s
  have before := first s
  cases ends : x s with
  | ok a t =>
    rw [ends] at before
    rw [bind_of_ok ends]
    exact (then_ a t).trans before
  | error exc t =>
    rw [ends] at before
    rw [bind_of_error ends]
    exact before

theorem Leaves.tryCatch {x : EStateM ε σ α} {handle : ε → EStateM ε σ α} (block : Leaves view x)
    (caught : ∀ exc, Leaves view (handle exc)) : Leaves view (tryCatch x handle) := by
  intro s
  have before := block s
  cases ends : x s with
  | ok a t =>
    rw [ends] at before
    rw [tryCatch_of_ok ends]
    exact before
  | error exc t =>
    rw [ends] at before
    rw [tryCatch_of_error ends]
    exact (caught exc t).trans before

theorem Leaves.asyncWith {aenter : EStateM ε σ Unit} {aexit : Option ε → EStateM ε σ Unit} {block : EStateM ε σ α}
    (enters : Leaves view aenter) (exits : ∀ exc, Leaves view (aexit exc)) (runs : Leaves view block) :
    Leaves view (asyncWith aenter aexit block) := by
  have body : Leaves view (MonadExcept.tryCatch (block >>= fun a => pure (Except.ok a))
      fun exc => (pure (Except.error exc) : EStateM ε σ (Except ε α))) :=
    (runs.bind fun a => leaves_pure _).tryCatch fun exc => leaves_pure _
  refine enters.bind fun _ => body.bind fun result => ?_
  cases result with
  | ok a => exact (exits none).bind fun _ => leaves_pure a
  | error exc => exact (exits (some exc)).bind fun _ => leaves_throw exc

end

end BetSettlement.Python
