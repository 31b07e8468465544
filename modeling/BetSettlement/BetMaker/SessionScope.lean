import BetSettlement.BetMaker.Messaging

/-!
# Where the session can be read

One `PostgresUnitOfWork` is entered again and again. `_cm` and `_session` are reset after the context
manager of the transaction has been awaited, and so not where that raises.
-/

namespace BetSettlement.BetMaker
open Python Machine Std.Do

set_option mvcgen.warning false

namespace SessionScope

abbrev Method := EStateM Exc PostgresUnitOfWork

/-- A call into SQLAlchemy, which returns or raises. -/
def calls : Option Exc → Method Unit
  | some exc => throw exc
  | none => pure ()

def getSession : Method TxId := do
  match (← get).session with
  | some t => pure t
  | none => throw .unitOfWorkNotStarted

/-- `begins` is the end of `sessionmaker.begin()`, and `enters` that of its `__aenter__`, which makes session `t`. -/
def aenter (t : TxId) (begins enters : Option Exc) : Method Unit := do
  calls begins
  modify fun uow => { uow with cm := some t }
  calls enters
  modify fun uow => { uow with session := some t }

/-- The `__aexit__` of `sessionmaker.begin()`: the commit of a body that has returned, or the rollback of one that
has raised. -/
structure Exit where
  commits : Option Exc
  rollsBack : Option Exc

def Exit.fault (exit : Exit) : Option Exc → Option Exc
  | none => exit.commits
  | some _ => exit.rollsBack

def aexit (exit : Exit) (raised : Option Exc) : Method Unit := do
  match (← get).cm with
  | none => throw .assertion
  | some _ =>
    calls (exit.fault raised)
    set ({} : PostgresUnitOfWork)

/-- The two ends of an `async with`. -/
inductive Event where
  | enter (begins enters : Option Exc)
  | leave (raised : Option Exc) (exit : Exit)

/-- `inside` is the use whose body is running. -/
structure Scope where
  uow : PostgresUnitOfWork := {}
  uses : Nat := 0
  inside : Option Nat := none

def step (s : Scope) : Event → Option Scope
  | .enter begins enters =>
    match s.inside with
    | some _ => none
    | none =>
      match aenter s.uses begins enters s.uow with
      | .ok _ uow => some ⟨uow, s.uses + 1, some s.uses⟩
      | .error _ uow => some ⟨uow, s.uses + 1, none⟩
  | .leave raised exit =>
    match s.inside with
    | none => none
    | some _ =>
      match aexit exit raised s.uow with
      | .ok _ uow | .error _ uow => some ⟨uow, s.uses, none⟩

/-- Inside a use the property reads the session of that use, and outside it raises. -/
def Scoped (s : Scope) : Prop :=
  match s.inside with
  | some t => getSession s.uow = .ok t s.uow
  | none => getSession s.uow = .error .unitOfWorkNotStarted s.uow

/-- Neither the commit nor the rollback raises. -/
def Event.Closes : Event → Prop
  | .enter _ _ => True
  | .leave raised exit => exit.fault raised = none

theorem scoped_session {s : Scope} : Scoped s ↔ s.uow.session = s.inside := by
  obtain ⟨⟨cm, session⟩, uses, inside⟩ := s
  unfold Scoped getSession
  simp only [bind_of_ok (get_eq _)]
  cases inside <;> cases session <;> simp [pure, EStateM.pure, throw, throwThe, MonadExceptOf.throw, EStateM.throw]

theorem aenter_ends (t : TxId) (begins enters : Option Exc) (uow : PostgresUnitOfWork) :
    aenter t begins enters uow = .ok () ⟨some t, some t⟩ ∨
      ∃ exc uow', aenter t begins enters uow = .error exc uow' ∧ uow'.session = uow.session := by
  cases begins with
  | some exc => exact Or.inr ⟨exc, uow, rfl, rfl⟩
  | none =>
    cases enters with
    | some exc => exact Or.inr ⟨exc, { uow with cm := some t }, rfl, rfl⟩
    | none => exact Or.inl rfl

theorem aexit_ends {uow : PostgresUnitOfWork} {t : TxId} (entered : uow.cm = some t) (exit : Exit)
    (raised : Option Exc) : aexit exit raised uow =
      match exit.fault raised with
      | none => .ok () {}
      | some exc => .error exc uow := by
  unfold aexit
  rw [bind_of_ok (get_eq uow)]
  simp only [entered]
  cases exit.fault raised <;> rfl

/-! ### Runs -/

/-- A use that is running has set both fields. -/
def Entered (s : Scope) : Prop := ∀ t, s.inside = some t → s.uow = ⟨some t, some t⟩

theorem step_entered {s s' : Scope} {event : Event} (next : step s event = some s') : Entered s' := by
  intro t inside
  unfold step at next
  split at next
  · rename_i begins enters
    split at next
    · cases next
    · rcases aenter_ends s.uses begins enters s.uow with returns | ⟨exc, uow, raises, -⟩
      · rw [returns] at next
        obtain rfl := Option.some.inj next
        obtain rfl := Option.some.inj inside
        rfl
      · rw [raises] at next
        obtain rfl := Option.some.inj next
        cases inside
  · split at next
    · cases next
    · split at next <;>
      · obtain rfl := Option.some.inj next
        cases inside

theorem run_entered {events : List Event} {s : Scope} (reached : run step {} events = some s) : Entered s :=
  run_invariant (fun _ _ _ _ => step_entered) (fun t inside => by cases inside) reached

/-- A step keeps the session where it belongs exactly if it closes what it ends. -/
theorem scoped_step {s s' : Scope} {event : Event} (entered : Entered s) (within : Scoped s)
    (next : step s event = some s') : Scoped s' ↔ event.Closes := by
  rw [scoped_session] at within ⊢
  cases event with
  | enter begins enters =>
    refine iff_of_true ?_ trivial
    simp only [step] at next
    split at next
    · cases next
    · rename_i outside
      rcases aenter_ends s.uses begins enters s.uow with returns | ⟨exc, uow, raises, same⟩
      · rw [returns] at next
        obtain rfl := Option.some.inj next
        rfl
      · rw [raises] at next
        obtain rfl := Option.some.inj next
        exact same.trans (within.trans outside)
  | leave raised exit =>
    simp only [step] at next
    split at next
    · cases next
    · rename_i t inside
      have uow := entered t inside
      rw [aexit_ends (show s.uow.cm = some t by rw [uow])] at next
      cases fault : exit.fault raised with
      | none =>
        rw [fault] at next
        obtain rfl := Option.some.inj next
        exact iff_of_true rfl fault
      | some exc =>
        rw [fault] at next
        obtain rfl := Option.some.inj next
        refine iff_of_false ?_ (by simp [Event.Closes, fault])
        simp [uow]

/-- The session stays where it belongs in every state of a run exactly if no commit and no rollback in it raises. -/
theorem session_scoped_iff {events : List Event} {s : Scope} (reached : run step {} events = some s) :
    (∀ front back middle, events = front ++ back → run step {} front = some middle → Scoped middle) ↔
      ∀ event ∈ events, event.Closes := by
  constructor
  · intro within event member
    obtain ⟨front, back, rfl⟩ := List.append_of_mem member
    obtain ⟨before, first, rest⟩ := run_append.mp reached
    obtain ⟨after, next, -⟩ := run_cons.mp rest
    have here := within front (event :: back) before rfl first
    refine (scoped_step (run_entered first) here next).mp ?_
    exact within (front ++ [event]) back after (by simp) (run_snoc.mpr ⟨before, first, next⟩)
  · rintro closes front back middle rfl first
    have kept : ∀ before event after, event.Closes → Entered before ∧ Scoped before → step before event = some after →
        Entered after ∧ Scoped after := fun before event after closes held next =>
      ⟨step_entered next, (scoped_step held.1 held.2 next).mpr closes⟩
    exact (run_invariant_of kept (fun event member => closes event (List.mem_append_left back member))
      ⟨fun t inside => (by cases inside), scoped_session.mpr rfl⟩ first).2

/-- A body that raises, a transaction that does not open, and a body that returns. -/
def threeUses : List Event :=
  [.enter none none, .leave (some .timeout) ⟨none, none⟩, .enter none (some (.dbapi .operational true)),
   .enter none none, .leave none ⟨none, none⟩]

theorem session_scoped_iff_threeUses : run step {} threeUses = some { uses := 3 } ∧
    ∀ front back middle, threeUses = front ++ back → run step {} front = some middle → Scoped middle := by
  have reached : run step {} threeUses = some { uses := 3 } := rfl
  exact ⟨reached, (session_scoped_iff reached).mpr (by simp [threeUses, Event.Closes, Exit.fault])⟩

/-! ### The coroutines -/

/-- Between two uses. -/
def outside (w : World) : Scope := { uow := w.uow, uses := w.opened }

/-- What runs inside a use leaves its fields alone. -/
def Keeps {α : Type} (fn : Coroutine α) : Prop :=
  ∀ w, ⦃fun s => ⌜s = w⌝⦄ fn ⦃post⟨fun _ s => ⌜s.uow = w.uow ∧ s.opened = w.opened⌝,
    fun _ s => ⌜s.uow = w.uow ∧ s.opened = w.opened⌝⟩⦄

theorem perform_keeps (actions : List Action) : Keeps (perform actions) := by
  intro w
  mvcgen [perform]
  all_goals
    subst_vars
    exact ⟨rfl, rfl⟩

theorem settlePending_keeps {α : Type} (server : Server) (eventId : UUID) (noop : TxId → LogEntry × α)
    (done : TxId → List UUID → LogEntry × α) : Keeps (settlePending server eventId noop done) := by
  intro w
  mvcgen [settlePending, PostgresUnitOfWork.getSession, selectPendingLocked, execute, perform, log]
  all_goals
    subst_vars
    exact ⟨rfl, rfl⟩

theorem sessionExit_keeps (server : Server) (t : TxId) (raised : Option Exc) : Keeps (sessionExit server t raised) := by
  intro w
  mvcgen [sessionExit, perform]
  all_goals
    subst_vars
    exact ⟨rfl, rfl⟩

/-- The end of the context manager is an end of `_cm.__aexit__`, in a world whose unit of work is still as it was. -/
theorem aexit_uow (server : Server) (raised : Option Exc) (w : World) {t : TxId} (entered : w.uow.cm = some t) :
    ∃ exit, match PostgresUnitOfWork.aexit server raised w with
      | .ok _ w' => aexit exit raised w.uow = .ok () w'.uow ∧ w'.opened = w.opened
      | .error exc w' => aexit exit raised w.uow = .error exc w'.uow ∧ w'.opened = w.opened := by
  have ends := triple_iff.mp (sessionExit_keeps server t raised w) w rfl
  unfold PostgresUnitOfWork.aexit
  rw [bind_of_ok (get_eq w)]
  simp only [entered]
  cases exits : sessionExit server t raised w with
  | ok _ w' =>
    rw [exits] at ends
    refine ⟨⟨none, none⟩, ?_⟩
    rw [bind_of_ok exits, aexit_ends entered]
    cases raised <;> exact ⟨rfl, ends.2⟩
  | error exc w' =>
    rw [exits] at ends
    refine ⟨⟨some exc, some exc⟩, ?_⟩
    rw [bind_of_error exits, aexit_ends entered]
    cases raised <;> exact ⟨congrArg _ ends.1.symm, ends.2⟩

theorem aenter_uow (server : Server) (call : Call) (w : World) :
    ∃ begins enters, match PostgresUnitOfWork.aenter server call w with
      | .ok _ w' => aenter w.opened begins enters w.uow = .ok () w'.uow ∧ w'.opened = w.opened + 1
      | .error exc w' => aenter w.opened begins enters w.uow = .error exc w'.uow ∧ w'.opened = w.opened + 1 := by
  have ends := triple_iff.mp (perform_keeps [.begin w.opened call (server.clock w.opened) (server.now w.opened)]
    { w with opened := w.opened + 1, uow.cm := some w.opened }) _ rfl
  unfold PostgresUnitOfWork.aenter
  rw [bind_of_ok (get_eq w)]
  simp only [bind_of_ok (modify_eq _ w)]
  cases performs : perform [.begin w.opened call (server.clock w.opened) (server.now w.opened)]
      { w with opened := w.opened + 1, uow.cm := some w.opened } with
  | ok _ w' =>
    rw [performs] at ends
    obtain ⟨kept, opened⟩ := ends
    refine ⟨none, none, ?_⟩
    rw [bind_of_ok performs]
    refine ⟨?_, opened⟩
    change _ = EStateM.Result.ok () { w'.uow with session := some w.opened }
    rw [kept]
    rfl
  | error exc w' =>
    rw [performs] at ends
    refine ⟨none, some exc, ?_⟩
    rw [bind_of_error performs]
    exact ⟨congrArg _ ends.1.symm, ends.2⟩

theorem leaves (server : Server) (raised : Option Exc) (w : World) {t : TxId} (entered : w.uow.cm = some t) :
    ∃ event, match PostgresUnitOfWork.aexit server raised w with
      | .ok _ w' | .error _ w' => step ⟨w.uow, w.opened, some t⟩ event = some (outside w') := by
  obtain ⟨exit, ends⟩ := aexit_uow server raised w entered
  refine ⟨.leave raised exit, ?_⟩
  cases exits : PostgresUnitOfWork.aexit server raised w with
  | ok _ w' | error _ w' =>
    rw [exits] at ends
    obtain ⟨resets, opened⟩ := ends
    simp [step, outside, resets, opened]

/-- The uses that the coroutine has made of the unit of work. -/
def Uses (start : World) (w : World) : Prop := ∃ events, run step (outside start) events = some (outside w)

theorem Uses.trans {u v w : World} (first : Uses u v) (last : Uses v w) : Uses u w := by
  obtain ⟨front, before⟩ := first
  obtain ⟨back, after⟩ := last
  exact ⟨front ++ back, run_append.mpr ⟨_, before, after⟩⟩

theorem asyncWith_uses {α : Type} {block : Coroutine α} (keeps : Keeps block) (server : Server) (call : Call)
    (start : World) :
    ⦃fun w => ⌜w = start⌝⦄
      asyncWith (PostgresUnitOfWork.aenter server call) (PostgresUnitOfWork.aexit server) block
      ⦃post⟨fun _ w => ⌜Uses start w⌝, fun _ w => ⌜Uses start w⌝⟩⦄ := by
  have enters : ⦃fun w => ⌜w = start⌝⦄ PostgresUnitOfWork.aenter server call
      ⦃post⟨fun _ w => ⌜∃ event, step (outside start) event = some ⟨w.uow, w.opened, some start.opened⟩⌝,
        fun _ w => ⌜Uses start w⌝⟩⦄ := by
    rw [triple_iff]
    rintro w rfl
    obtain ⟨begins, enters, ends⟩ := aenter_uow server call w
    cases entered : PostgresUnitOfWork.aenter server call w with
    | ok _ w' =>
      rw [entered] at ends
      obtain ⟨returns, opened⟩ := ends
      exact ⟨.enter begins enters, by simp [step, outside, returns, opened]⟩
    | error exc w' =>
      rw [entered] at ends
      obtain ⟨raises, opened⟩ := ends
      exact ⟨[.enter begins enters], run_cons.mpr ⟨_, by simp [step, outside, raises, opened], run_nil.mpr rfl⟩⟩
  have exits : ∀ raised, ⦃fun w => ⌜∃ event, step (outside start) event = some ⟨w.uow, w.opened, some start.opened⟩⌝⦄
      PostgresUnitOfWork.aexit server raised ⦃post⟨fun _ w => ⌜Uses start w⌝, fun _ w => ⌜Uses start w⌝⟩⦄ := by
    intro raised
    rw [triple_iff]
    rintro w ⟨event, first⟩
    have entered : w.uow = ⟨some start.opened, some start.opened⟩ := step_entered first _ rfl
    obtain ⟨last, ends⟩ := leaves server raised w (show w.uow.cm = some start.opened by rw [entered])
    cases exits : PostgresUnitOfWork.aexit server raised w with
    | ok _ w' | error _ w' =>
      rw [exits] at ends
      exact ⟨[event, last], run_cons.mpr ⟨_, first, run_cons.mpr ⟨_, ends, run_nil.mpr rfl⟩⟩⟩
  have runs : ⦃fun w => ⌜∃ event, step (outside start) event = some ⟨w.uow, w.opened, some start.opened⟩⌝⦄ block
      ⦃post⟨fun _ w => ⌜∃ event, step (outside start) event = some ⟨w.uow, w.opened, some start.opened⟩⌝,
        fun _ w => ⌜∃ event, step (outside start) event = some ⟨w.uow, w.opened, some start.opened⟩⌝⟩⦄ := by
    rw [triple_iff]
    rintro w ⟨event, first⟩
    have kept := triple_iff.mp (keeps w) w rfl
    cases ran : block w with
    | ok _ w' | error _ w' =>
      rw [ran] at kept
      obtain ⟨uow, opened⟩ := kept
      exact ⟨event, by rw [uow, opened]; exact first⟩
  exact asyncWith_spec enters runs (fun _ => exits none) fun exc => exits (some exc)

theorem settleBetsForEvent_uses (server : Server) (start : World) (eventId : UUID)
    (terminalState : EventTerminalState) (settledVia : SettledVia) :
    ⦃fun w => ⌜w = start⌝⦄ settleBetsForEvent server eventId terminalState settledVia
      ⦃post⟨fun _ w => ⌜Uses start w⌝, fun _ w => ⌜Uses start w⌝⟩⦄ := by
  have keeps := settlePending_keeps server eventId
    (fun t => (LogEntry.settleNoop eventId settledVia,
      SettleResult.mk eventId terminalState 0 [] settledVia (server.clock t)))
    fun t betIds => (LogEntry.settleCommitted eventId betIds settledVia (terminalToStatus terminalState),
      SettleResult.mk eventId terminalState betIds.length betIds settledVia (server.clock t))
  exact asyncWith_uses keeps server (.settleBetsForEvent eventId terminalState settledVia) start

/-- The attempts of a delivery are uses of one unit of work. -/
theorem settleWithRetry_uses [Tenacity] (server : Server) (start : World) (eventId : UUID)
    (terminalState : EventTerminalState) (settledVia : SettledVia) :
    ⦃fun w => ⌜Uses start w⌝⦄ settleWithRetry server eventId terminalState settledVia
      ⦃post⟨fun _ w => ⌜Uses start w⌝, fun _ w => ⌜Uses start w⌝⟩⦄ := by
  have called := fun w => triple_iff.mp (settleBetsForEvent_uses server w eventId terminalState settledVia) w rfl
  refine @settleWithRetry_rule server _ _ _ _ (fun _ w => Uses start w) _ _ ?_ ?_ ?_
  · intro n w result t before returned
    have uses := called w
    rw [returned] at uses
    exact before.trans uses
  · intro n w exc t before raised _ _
    have uses := called w
    rw [raised] at uses
    exact before.trans uses
  · intro n w exc t before raised _
    have uses := called w
    rw [raised] at uses
    exact before.trans uses

/-! ### A commit that is lost -/

def lostCommit : List Event := [.enter none none, .leave none ⟨some (.dbapi .operational true), none⟩]

def losesCommits : Server where
  fault _ statement := if statement = .commit then some (.dbapi .operational true) else none
  now t := t
  clock t := t

theorem getSession_reads {w : World} {t : TxId} (held : w.uow.session = some t) :
    PostgresUnitOfWork.getSession w = .ok t w := by
  unfold PostgresUnitOfWork.getSession
  rw [bind_of_ok (get_eq w)]
  simp only [held]
  rfl

/-- After a commit that has raised the property still reads the session of its transaction. The consumer's
attempts, the last of which has failed so, leave the unit of work like that. -/
theorem lost_commit_leaves_session :
    (¬ ∀ events s, run step {} events = some s → Scoped s) ∧
    run step {} lostCommit = some ⟨⟨some 0, some 0⟩, 1, none⟩ ∧
    ∃ w, settleWithRetry losesCommits 7 .finishedWin .consumer { db := .start ∅ } =
        .error (.dbapi .operational true) w ∧
      PostgresUnitOfWork.getSession w = .ok 2 w ∧ ∃ tx, w.db.slots 2 = .aborted tx := by
  have reached : run step {} lostCommit = some ⟨⟨some 0, some 0⟩, 1, none⟩ := rfl
  have facts : (raisedOf (settleWithRetry losesCommits 7 .finishedWin .consumer { db := .start ∅ })).map
      (fun left => (left.1, left.2.uow.session, left.2.db.slots 2)) = some (.dbapi .operational true, some 2,
        .aborted ⟨.settleBetsForEvent 7 .finishedWin .consumer, 2, 2, .fetched, [], [], []⟩) := by
    decide +kernel
  obtain ⟨⟨exc, w⟩, ended, same⟩ := Option.map_eq_some_iff.mp facts
  obtain ⟨rfl, session, slot⟩ : exc = _ ∧ w.uow.session = _ ∧ w.db.slots 2 = _ := by simpa using same
  have raised := raisedOf_some.mp ended
  refine ⟨fun within => ?_, reached, w, raised, getSession_reads session, _, slot⟩
  have uses := triple_iff.mp (settleWithRetry_uses losesCommits { db := .start ∅ } 7 .finishedWin .consumer)
    { db := .start ∅ } ⟨[], rfl⟩
  rw [raised] at uses
  obtain ⟨events, attempts⟩ := uses
  have closed : (outside w).uow.session = none := scoped_session.mp (within events _ attempts)
  rw [outside, session] at closed
  cases closed

end SessionScope

end BetSettlement.BetMaker
