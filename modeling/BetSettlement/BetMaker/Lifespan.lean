import BetSettlement.BetMaker.Loop
import BetSettlement.Python.Finally

/-!
# The life of the process

The startup reaches Postgres, opens a client and a connection to the broker, and creates the task of the
reconciler. Whatever the server raises at the `yield`, the shutdown gives all of it up.
-/

namespace BetSettlement.BetMaker
open Python Machine

inductive Resource where
  | engine | httpClient | broker | reconciliation
  deriving DecidableEq

/-- The steps of the startup that may raise, but for the wait for Postgres. -/
inductive Startup where
  | settings | createEngine | connect | declareExchange | declareQueue | bind
  deriving DecidableEq

/-- What the awaited calls raise. `asleep` says of a ping that the process is cancelled in the sleep after it, and
`reconciliation` is raised where the cancelled task is awaited. -/
structure Surroundings where
  startup : Startup → Option BaseExn
  ping : Nat → Option BaseExn
  asleep : Nat → Bool
  serving : Option BaseExn
  reconciliation : Option BaseExn
  closing : Resource → Option BaseExn

def BaseExn.isException : BaseExn → Bool
  | .cancelledError => false
  | .exception _ => true

/-- What the sleep raises that comes before another ping, after so many of them. -/
def Surroundings.sleep (env : Surroundings) : Nat → Option BaseExn
  | 0 => none
  | k + 1 => if env.asleep k then some .cancelledError else none

/-- `SELECT 1`, at most ten times. -/
def waitForPostgres [Tenacity] (env : Surroundings) : EStateM BaseExn (Process Resource) Unit :=
  retry 10 BaseExn.isException (fun _ _ p => p) do
    let attempts := (← get).attempts
    awaits (env.sleep attempts)
    modify fun p => { p with attempts := attempts + 1 }
    awaits (env.ping attempts)

/-- `suppress(asyncio.CancelledError)`. -/
def suppressCancelled (outcome : Option BaseExn) : Option BaseExn := outcome.filter BaseExn.isException

def shutdown (env : Surroundings) : EStateM BaseExn (Process Resource) Unit := do
  close none .reconciliation
  awaits (suppressCancelled env.reconciliation)
  try close (env.closing .broker) .broker
  finally
    try close (env.closing .httpClient) .httpClient
    finally close (env.closing .engine) .engine

def lifespan [Tenacity] (env : Surroundings) : EStateM BaseExn (Process Resource) Unit := do
  awaits (env.startup .settings)
  awaits (env.startup .createEngine)
  acquire .engine
  tryCatch (waitForPostgres env) fun
    | .exception exc => do
      close (env.closing .engine) .engine
      throw (.exception exc)
    | .cancelledError => throw .cancelledError
  acquire .httpClient
  awaits (env.startup .connect)
  acquire .broker
  awaits (env.startup .declareExchange)
  awaits (env.startup .declareQueue)
  awaits (env.startup .bind)
  acquire .reconciliation
  try yields env.serving
  finally shutdown env

/-! ### The wait -/

/-- The pings before this one have raised, and their sleeps were left alone. -/
def Surroundings.Refused (env : Surroundings) (k : Nat) : Prop :=
  ∀ j < k, (∃ exc, env.ping j = some (.exception exc)) ∧ env.asleep j = false

/-- This ping is the first that is answered. -/
structure Surroundings.Answers (env : Surroundings) (k : Nat) : Prop where
  early : k < 10
  answered : env.ping k = none
  refused : env.Refused k

/-- The process is cancelled in this ping, or in the sleep after it. -/
structure Surroundings.Cancels (env : Surroundings) (k : Nat) : Prop where
  early : k < 10
  struck : env.ping k = some .cancelledError ∨
    k + 1 < 10 ∧ (∃ exc, env.ping k = some (.exception exc)) ∧ env.asleep k = true
  refused : env.Refused k

def Surroundings.Reachable (env : Surroundings) : Prop := ∃ k, env.Answers k

theorem refused_succ {env : Surroundings} {k : Nat} {exc : Exn} (refused : env.Refused k)
    (raised : env.ping k = some (.exception exc)) (awake : env.asleep k = false) : env.Refused (k + 1) := by
  intro j below
  rcases Nat.lt_succ_iff_lt_or_eq.mp below with before | rfl
  · exact refused j before
  · exact ⟨⟨exc, raised⟩, awake⟩

/-- How the wait ends, from the tries that have been made. -/
inductive Waited (env : Surroundings) (p : Process Resource) : EStateM.Result BaseExn (Process Resource) Unit → Prop where
  | reached {k} (answers : env.Answers k) : Waited env p (.ok () { p with attempts := k + 1 })
  | exhausted {exc} (refused : env.Refused 9) (raised : env.ping 9 = some (.exception exc)) :
      Waited env p (.error (.exception exc) { p with attempts := 10 })
  | cancelled {k} (cancels : env.Cancels k) : Waited env p (.error .cancelledError { p with attempts := k + 1 })

theorem ping_eq (env : Surroundings) (p : Process Resource) (awake : env.sleep p.attempts = none) :
    (do
      let attempts := (← get).attempts
      awaits (env.sleep attempts)
      modify fun p => { p with attempts := attempts + 1 }
      awaits (env.ping attempts) : EStateM BaseExn (Process Resource) Unit) p =
      awaits (env.ping p.attempts) { p with attempts := p.attempts + 1 } := by
  rw [bind_of_ok (get_eq p), awake, bind_of_ok (awaits_none p), bind_of_ok (modify_eq _ p)]

theorem ping_struck {env : Surroundings} {p : Process Resource} {exc : BaseExn} (struck : env.sleep p.attempts = some exc) :
    (do
      let attempts := (← get).attempts
      awaits (env.sleep attempts)
      modify fun p => { p with attempts := attempts + 1 }
      awaits (env.ping attempts) : EStateM BaseExn (Process Resource) Unit) p = .error exc p := by
  rw [bind_of_ok (get_eq p), struck, bind_of_error (awaits_some exc p)]

theorem wait_ends [Tenacity] (env : Surroundings) (p : Process Resource) (fresh : p.attempts = 0) :
    Waited env p (waitForPostgres env p) := by
  have from_ : ∀ left number (t : Process Resource), 10 - number = left → number < 10 → env.Refused number →
      env.sleep number = none → t = { p with attempts := number } →
      Waited env p (Tenacity.attempt 10 BaseExn.isException (fun _ _ p => p) (do
        let attempts := (← get).attempts
        awaits (env.sleep attempts)
        modify fun p => { p with attempts := attempts + 1 }
        awaits (env.ping attempts)) (number + 1) t) := by
    intro left
    induction left with
    | zero =>
      intro number t none early
      omega
    | succ left ih =>
      intro number t some_left early refused awake same
      subst same
      rw [Tenacity.attempt_eq, ping_eq env _ awake]
      cases answer : env.ping number with
      | none => exact .reached ⟨early, answer, refused⟩
      | some exc =>
        cases exc with
        | cancelledError => exact .cancelled ⟨early, Or.inl answer, refused⟩
        | exception exc =>
          by_cases last : number + 1 < 10
          · rw [awaits_some]
            change Waited env p (if true = true ∧ number + 1 < 10 then _ else _)
            rw [if_pos ⟨rfl, last⟩]
            cases struck : env.asleep number with
            | false =>
              have awake : env.sleep (number + 1) = none := by simp [Surroundings.sleep, struck]
              exact ih (number + 1) _ (by omega) last (refused_succ refused answer struck) awake rfl
            | true =>
              -- the sleep is the first thing in the next attempt, and a cancellation is not tried again
              have sleeps : env.sleep (number + 1) = some .cancelledError := by simp [Surroundings.sleep, struck]
              have ends : Waited env p (.error .cancelledError { p with attempts := number + 1 }) :=
                .cancelled ⟨early, Or.inr ⟨last, ⟨exc, answer⟩, struck⟩, refused⟩
              rw [Tenacity.attempt_eq, ping_struck sleeps]
              exact ends
          · obtain rfl : number = 9 := by omega
            exact .exhausted refused answer
  obtain ⟨held, closed, attempts, served⟩ := p
  subst fresh
  exact from_ 10 0 _ rfl (by omega) (fun j below => absurd below (Nat.not_lt_zero j)) rfl rfl

/-! ### The shutdown -/

theorem shutdown_closes {env : Surroundings} (stopped : suppressCancelled env.reconciliation = none)
    (p : Process Resource) : stateOf (shutdown env p) = { p with
        held := (((p.held.erase .reconciliation).erase .broker).erase .httpClient).erase .engine
        closed := p.closed ++ [.reconciliation, .broker, .httpClient, .engine] } ∧
      exceptionOf (shutdown env p) =
        ((env.closing .engine).or (env.closing .httpClient)).or (env.closing .broker) := by
  have first : close none .reconciliation p = (.ok () { p with
      held := p.held.erase .reconciliation, closed := p.closed ++ [.reconciliation] } :
        EStateM.Result BaseExn (Process Resource) Unit) := rfl
  unfold shutdown
  rw [bind_of_ok first, stopped, bind_of_ok (awaits_none _), tryFinally_stateOf, tryFinally_exceptionOf]
  simp only [tryFinally_stateOf, tryFinally_exceptionOf, close_stateOf, close_exceptionOf, List.append_assoc,
    List.cons_append, List.nil_append, and_self]

/-! ### The whole life -/

theorem loop_cancelled (rounds : List Round) {start : ReconciliationTask} (ready : Ready start.reconciler.world) :
    exceptionOf (reconciliationLoop rounds start) = some .cancelledError := by
  induction rounds generalizing start with
  | nil => rfl
  | cons round rest ih =>
    cases readable : round.unreadable with
    | some exc =>
      rw [loop_unreadable rest readable]
      exact ih ready
    | none =>
      obtain ⟨middle, ticks, ready', -⟩ := tick_readable readable ready
      rw [loop_ticks rest ticks]
      exact ih ready'

/-- Every step of the startup goes well. -/
def Surroundings.Starts (env : Surroundings) : Prop := (∀ step, env.startup step = none) ∧ env.Reachable

/-- The steps that come before. -/
def Startup.earlier : Startup → List Startup
  | .settings => []
  | .createEngine => [.settings]
  | .connect => [.settings, .createEngine]
  | .declareExchange => [.settings, .createEngine, .connect]
  | .declareQueue => [.settings, .createEngine, .connect, .declareExchange]
  | .bind => [.settings, .createEngine, .connect, .declareExchange, .declareQueue]

def Surroundings.Passes (env : Surroundings) (step : Startup) : Prop := ∀ other ∈ step.earlier, env.startup other = none

/-- This step raises, and those before it went well. -/
structure Surroundings.Stops (env : Surroundings) (step : Startup) (exc : BaseExn) : Prop where
  passes : env.Passes step
  raised : env.startup step = some exc

/-- A startup that raises, with what it leaves open: nothing where Postgres could not be reached, but all it has
opened by then where a later step raises. -/
inductive Fails (env : Surroundings) : BaseExn → Process Resource → Prop where
  | unconfigured {exc step} (early : step ∈ [.settings, .createEngine]) (stops : env.Stops step exc) : Fails env exc {}
  | unreachable {exc} (passes : env.Passes .connect) (refused : env.Refused 9)
      (raised : env.ping 9 = some (.exception exc)) :
      Fails env ((env.closing .engine).getD (.exception exc)) { closed := [.engine], attempts := 10 }
  | cancelled {k} (passes : env.Passes .connect) (cancels : env.Cancels k) :
      Fails env .cancelledError { held := [.engine], attempts := k + 1 }
  | disconnected {exc k} (answers : env.Answers k) (stops : env.Stops .connect exc) :
      Fails env exc { held := [.httpClient, .engine], attempts := k + 1 }
  | undeclared {exc k step} (answers : env.Answers k) (late : step ∈ [.declareExchange, .declareQueue, .bind])
      (stops : env.Stops step exc) :
      Fails env exc { held := [.broker, .httpClient, .engine], attempts := k + 1 }

theorem not_reachable {env : Surroundings} {k : Nat} (refused : env.Refused k) (unanswered : env.ping k ≠ none)
    (last : ∀ j < 10, k < j → ¬ env.Refused j) : ¬ env.Reachable := by
  rintro ⟨j, early, answered, before⟩
  rcases Nat.lt_trichotomy j k with less | rfl | greater
  · obtain ⟨⟨exc, raised⟩, -⟩ := refused j less
    cases answered.symm.trans raised
  · exact unanswered answered
  · exact last j early greater before

theorem Surroundings.Cancels.unreachable {env : Surroundings} {k : Nat} (cancels : env.Cancels k) :
    ¬ env.Reachable := by
  refine not_reachable cancels.refused (fun answered => ?_) ?_
  · rcases cancels.struck with raised | ⟨-, ⟨exc, raised⟩, -⟩
    · cases answered.symm.trans raised
    · cases answered.symm.trans raised
  · intro j _ later before
    obtain ⟨⟨exc, refused⟩, awake⟩ := before k later
    rcases cancels.struck with raised | ⟨-, -, struck⟩
    · cases refused.symm.trans raised
    · cases awake.symm.trans struck

/-- What is done once Postgres has answered. -/
def opens (env : Surroundings) : EStateM BaseExn (Process Resource) Unit := do
  acquire .httpClient
  awaits (env.startup .connect)
  acquire .broker
  awaits (env.startup .declareExchange)
  awaits (env.startup .declareQueue)
  awaits (env.startup .bind)
  acquire .reconciliation
  try yields env.serving
  finally shutdown env

theorem opens_ends {env : Surroundings} (stopped : suppressCancelled env.reconciliation = none)
    (passes : env.Passes .connect) {k : Nat} (answers : env.Answers k) :
    ((∀ step, env.startup step = none) ∧
      stateOf (opens env { held := [.engine], attempts := k + 1 }) =
        { closed := [.reconciliation, .broker, .httpClient, .engine], attempts := k + 1, served := true } ∧
      exceptionOf (opens env { held := [.engine], attempts := k + 1 }) =
        (((env.closing .engine).or (env.closing .httpClient)).or (env.closing .broker)).or env.serving) ∨
    ∃ step exc p, env.startup step = some exc ∧ Fails env exc p ∧ p.served = false ∧
      opens env { held := [.engine], attempts := k + 1 } = .error exc p := by
  have settings : env.startup .settings = none := passes _ (by simp [Startup.earlier])
  have createEngine : env.startup .createEngine = none := passes _ (by simp [Startup.earlier])
  unfold opens
  simp only [acquire_bind, awaits_bind]
  cases connect : env.startup .connect with
  | some exc => exact Or.inr ⟨.connect, exc, _, connect, .disconnected answers ⟨passes, connect⟩, rfl, rfl⟩
  | none =>
    cases declareExchange : env.startup .declareExchange with
    | some exc =>
      exact Or.inr ⟨.declareExchange, exc, _, declareExchange, .undeclared answers (by simp)
        ⟨by simp [Surroundings.Passes, Startup.earlier, *], declareExchange⟩, rfl, rfl⟩
    | none =>
      cases declareQueue : env.startup .declareQueue with
      | some exc =>
        exact Or.inr ⟨.declareQueue, exc, _, declareQueue, .undeclared answers (by simp)
          ⟨by simp [Surroundings.Passes, Startup.earlier, *], declareQueue⟩, rfl, rfl⟩
      | none =>
        cases bind : env.startup .bind with
        | some exc =>
          exact Or.inr ⟨.bind, exc, _, bind, .undeclared answers (by simp)
            ⟨by simp [Surroundings.Passes, Startup.earlier, *], bind⟩, rfl, rfl⟩
        | none =>
          refine Or.inl ⟨?_, ?_, ?_⟩
          · intro step
            cases step <;> assumption
          · rw [tryFinally_stateOf, yields_stateOf, (shutdown_closes stopped _).1]
            rfl
          · rw [tryFinally_exceptionOf, (shutdown_closes stopped _).2, yields_exceptionOf]

theorem lifespan_eq [Tenacity] (env : Surroundings) : lifespan env {} =
    match env.startup .settings with
    | some exc => .error exc {}
    | none =>
      match env.startup .createEngine with
      | some exc => .error exc {}
      | none =>
        match waitForPostgres env { held := [.engine] } with
        | .ok _ p => opens env p
        | .error (.exception exc) p => .error ((env.closing .engine).getD (.exception exc))
            { p with held := p.held.erase .engine, closed := p.closed ++ [.engine] }
        | .error .cancelledError p => .error .cancelledError p := by
  unfold lifespan
  simp only [acquire_bind, awaits_bind]
  cases env.startup .settings with
  | some exc => rfl
  | none =>
    cases env.startup .createEngine with
    | some exc => rfl
    | none =>
      dsimp only
      cases waits : waitForPostgres env { held := [.engine] } with
      | ok result p => exact bind_of_ok (tryCatch_of_ok waits)
      | error exc p =>
        cases exc with
        | cancelledError => exact bind_of_error ((tryCatch_of_error waits).trans rfl)
        | exception exc =>
          cases env.closing .engine <;> exact bind_of_error ((tryCatch_of_error waits).trans rfl)

/-- Once the startup has got through, everything is closed in the reverse order, each thing once, whatever the
server and the closings raise: the task of the reconciler ends by its cancellation alone. A startup that raises
has served nothing. -/
theorem lifespan_closes [Tenacity] {env : Surroundings} {rounds : List Round} {task : ReconciliationTask}
    (ready : Ready task.reconciler.world) (runs : env.reconciliation = exceptionOf (reconciliationLoop rounds task)) :
    (env.Starts → ∃ k, stateOf (lifespan env {}) =
        { closed := [.reconciliation, .broker, .httpClient, .engine], attempts := k + 1, served := true } ∧
      exceptionOf (lifespan env {}) =
        (((env.closing .engine).or (env.closing .httpClient)).or (env.closing .broker)).or env.serving) ∧
    (¬ env.Starts → ∃ exc p, lifespan env {} = .error exc p ∧ Fails env exc p ∧ p.served = false) := by
  have stopped : suppressCancelled env.reconciliation = none := by
    rw [runs, loop_cancelled rounds ready]
    rfl
  rw [lifespan_eq]
  cases settings : env.startup .settings with
  | some exc =>
    refine ⟨?_, fun _ => ⟨exc, _, rfl, .unconfigured (by simp) ⟨?_, settings⟩, rfl⟩⟩
    · intro starts
      cases settings.symm.trans (starts.1 _)
    · simp [Surroundings.Passes, Startup.earlier]
  | none =>
    cases createEngine : env.startup .createEngine with
    | some exc =>
      refine ⟨?_, fun _ => ⟨exc, _, rfl, .unconfigured (by simp) ⟨?_, createEngine⟩, rfl⟩⟩
      · intro starts
        cases createEngine.symm.trans (starts.1 _)
      · simp [Surroundings.Passes, Startup.earlier, settings]
    | none =>
      have passes : env.Passes .connect := by
        simp [Surroundings.Passes, Startup.earlier, settings, createEngine]
      have waited := wait_ends env { held := [.engine] } rfl
      generalize waitForPostgres env { held := [.engine] } = result at waited
      cases waited with
      | exhausted refused raised =>
        have unreachable : ¬ env.Reachable :=
          not_reachable refused (by simp [raised]) fun j early later => absurd early (Nat.not_lt.mpr later)
        exact ⟨fun starts => absurd starts.2 unreachable, fun _ => ⟨_, _, rfl, .unreachable passes refused raised, rfl⟩⟩
      | cancelled cancels =>
        exact ⟨fun starts => absurd starts.2 cancels.unreachable, fun _ => ⟨_, _, rfl, .cancelled passes cancels, rfl⟩⟩
      | @reached k answers =>
        rcases opens_ends stopped passes answers with ⟨steps, closes, raises⟩ |
          ⟨step, exc, p, raised, fails, unserved, same⟩
        · exact ⟨fun _ => ⟨k, closes, raises⟩, fun never => absurd ⟨steps, k, answers⟩ never⟩
        · refine ⟨fun starts => ?_, fun _ => ⟨exc, p, same, fails, unserved⟩⟩
          cases raised.symm.trans (starts.1 step)

/-- Postgres answers the third time, and the connection to the broker cannot be closed. -/
def slowStart : Surroundings where
  startup _ := none
  ping k := if k < 2 then some (.exception (.database .timeout)) else none
  asleep _ := false
  serving := none
  reconciliation := some .cancelledError
  closing
    | .broker => some (.exception (.database .timeout))
    | _ => none

theorem lifespan_closes_slowStart : ∃ k, stateOf (lifespan slowStart {}) =
      { closed := [.reconciliation, .broker, .httpClient, .engine], attempts := k + 1, served := true } ∧
    exceptionOf (lifespan slowStart {}) = some (.exception (.database .timeout)) := by
  let task : ReconciliationTask := { reconciler := { world := { db := .start ∅ } } }
  have ready : Ready task.reconciler.world := start_ready ∅
  have starts : slowStart.Starts := by
    refine ⟨fun _ => rfl, 2, by decide, by decide, fun j early => ⟨⟨.database .timeout, ?_⟩, rfl⟩⟩
    simp only [slowStart, if_pos early]
  have runs : slowStart.reconciliation = exceptionOf (reconciliationLoop [] task) := rfl
  obtain ⟨k, closes, raises⟩ := (lifespan_closes ready runs).1 starts
  exact ⟨k, closes, raises⟩

end BetSettlement.BetMaker
