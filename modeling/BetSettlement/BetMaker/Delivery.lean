import BetSettlement.BetMaker.Messaging
import BetSettlement.BetMaker.Service

/-!
# The handler among the other tasks

What `on_event_finished` does alone, from the delivery to the disposition, is a run of the handler that
shares its database with bet-maker's other tasks.
-/

namespace BetSettlement.BetMaker
open Python Machine Std.Do

set_option mvcgen.warning false

variable [Pydantic]

/-- The tasks of `s`, with handler `h` and the database moved on. -/
def Service.moved (s : Service) (h : Nat) (handler : Handler) (db : Database) : Service :=
  { s.setHandler h handler with db }

@[simp] theorem moved_db (s : Service) (h : Nat) (handler : Handler) (db : Database) :
    (s.moved h handler db).db = db := rfl

@[simp] theorem moved_handlers (s : Service) (h : Nat) (handler : Handler) (db : Database) :
    (s.moved h handler db).handlers h = handler := by
  simp [Service.moved, Service.setHandler]

@[simp] theorem moved_setHandler (s : Service) (h : Nat) (handler handler' : Handler) (db : Database) :
    (s.moved h handler db).setHandler h handler' = s.moved h handler' db := by
  simp [Service.moved, Service.setHandler]

/-- A run of the handler that ends where the coroutine has got to. -/
def Follows (s : Service) (h : Nat) (handler : Handler) (w : World) : Prop :=
  ∃ events, run serve s events = some (s.moved h handler w.db)

theorem Follows.event {s : Service} {h : Nat} {handler handler' : Handler} {w w' : World} {event : Event}
    (follows : Follows s h handler w)
    (served : serve (s.moved h handler w.db) event = some (s.moved h handler' w'.db)) : Follows s h handler' w' := by
  obtain ⟨events, reached⟩ := follows
  exact ⟨events ++ [event], run_snoc.mpr ⟨_, reached, served⟩⟩

theorem serve_transaction {s : Service} {db : Database} {action : Action} (next : step s.db action = some db)
    (used : s.db.slots action.tx ≠ .unused) : serve s (.transaction action) = some { s with db } := by
  cases action with
  | begin t call clock now => exact absurd (begin_slot next).1 used
  | _ => simp [serve, next]

theorem serve_transactions {s : Service} {db : Database} {t : TxId} {actions : List Action}
    (own : ∀ action ∈ actions, action.tx = t) (used : s.db.slots t ≠ .unused)
    (reached : run step s.db actions = some db) : run serve s (actions.map .transaction) = some { s with db } := by
  induction actions generalizing s with
  | nil =>
    obtain rfl := run_nil.mp reached
    exact run_nil.mpr rfl
  | cons action rest ih =>
    obtain ⟨middle, first, last⟩ := run_cons.mp reached
    have mine := own action List.mem_cons_self
    have later : ({ s with db := middle } : Service).db.slots t ≠ .unused := (slot_later first t).used used
    exact run_cons.mpr ⟨_, serve_transaction first (mine ▸ used),
      ih (fun action member => own action (List.mem_cons_of_mem _ member)) later last⟩

theorem Follows.attempt {s : Service} {h attempts : Nat} {message : EventFinishedMessage} {w w' : World} {t : TxId}
    (follows : Follows s h (.received message attempts) w)
    (transacted : Transacted w.db t (settleCall message) w'.db) :
    Follows s h (.attempting message (attempts + 1) t) w' := by
  obtain ⟨events, reached⟩ := follows
  obtain ⟨clock, now, actions, moves, own⟩ := transacted
  obtain ⟨begun, begins, rest⟩ := run_cons.mp moves
  have attempted : serve (s.moved h (.received message attempts) w.db) (.handler h (.attempt t clock now)) =
      some (s.moved h (.attempting message (attempts + 1) t) begun) := by
    simp [serve, handlerStep, Service.begin, Service.moved, Service.setHandler, begins]
  have used : (s.moved h (.attempting message (attempts + 1) t) begun).db.slots t ≠ .unused := by
    simp [(begin_slot begins).2]
  have served := serve_transactions own used rest
  exact ⟨events ++ (.handler h (.attempt t clock now) :: actions.map .transaction),
    run_append.mpr ⟨_, reached, run_cons.mpr ⟨_, attempted, served⟩⟩⟩

section
variable {s : Service} {h : Nat} {message : EventFinishedMessage} {start : World}

/-- Before attempt `n`. -/
def Waiting (s : Service) (h : Nat) (message : EventFinishedMessage) (start : World) (n : Nat) (w : World) : Prop :=
  ∃ made, n = made + 1 ∧ made < 3 ∧ Ready w ∧ Follows s h (.received message made) w ∧ w.disposed = start.disposed

/-- After the last attempt, whose transaction has ended so. -/
def Attempted (s : Service) (h : Nat) (message : EventFinishedMessage) (start : World) (ended : Transaction → Slot)
    (w : World) : Prop :=
  ∃ made t tx, w.db.slots t = ended tx ∧ Follows s h (.attempting message made t) w ∧ w.disposed = start.disposed

/-- How the delivery has ended. -/
def Delivered (s : Service) (h : Nat) (message : EventFinishedMessage) (start w : World) : Prop :=
  (∃ t, Follows s h (.acked message t) w) ∧ w.disposed = start.disposed ++ [.ack] ∨
    Follows s h .rejected w ∧ w.disposed = start.disposed ++ [.reject false]

theorem Attempted.acks {w : World} (attempted : Attempted s h message start .committed w) :
    Delivered s h message start { w with disposed := w.disposed ++ [.ack] } := by
  obtain ⟨made, t, tx, committed, follows, disposed⟩ := attempted
  have served : serve (s.moved h (.attempting message made t) w.db) (.handler h .ack) =
      some (s.moved h (.acked message t) w.db) := by simp [serve, handlerStep, committed]
  exact Or.inl ⟨⟨t, follows.event served⟩, congrArg (· ++ [.ack]) disposed⟩

theorem Attempted.rejects {w : World} (attempted : Attempted s h message start .aborted w) (logged : List LogEntry) :
    Delivered s h message start { w with logged, disposed := w.disposed ++ [.reject false] } := by
  obtain ⟨made, t, tx, aborted, follows, disposed⟩ := attempted
  have served : serve (s.moved h (.attempting message made t) w.db) (.handler h .reject) =
      some (s.moved h .rejected w.db) := by simp [serve, handlerStep, aborted]
  exact Or.inr ⟨follows.event served, congrArg (· ++ [.reject false]) disposed⟩

theorem settleWithRetry_follows [Tenacity] (server : Server) :
    ⦃fun w => ⌜Waiting s h message start 1 w⌝⦄ settleWithRetry server message.eventId message.newState .consumer
      ⦃post⟨fun _ w => ⌜Attempted s h message start .committed w⌝,
        fun _ w => ⌜Attempted s h message start .aborted w⌝⟩⦄ := by
  refine @settleWithRetry_rule server _ _ _ _ (Waiting s h message start) _ _ ?_ ?_ ?_
  · rintro n w result t ⟨made, rfl, few, ready, follows, disposed⟩ called
    obtain ⟨ended, ⟨tx, committed⟩, -⟩ := settleBetsForEvent_returns ready called
    exact ⟨made + 1, w.opened, tx, committed, follows.attempt ended.transacted, ended.disposed.trans disposed⟩
  · rintro n w exc t ⟨made, rfl, -, ready, follows, disposed⟩ called - few
    obtain ⟨ended, ⟨tx, aborted⟩, -⟩ := settleBetsForEvent_raises ready called
    have attempt : Follows s h (.attempting message (made + 1) w.opened) t := follows.attempt ended.transacted
    have served : serve (s.moved h (.attempting message (made + 1) w.opened) t.db) (.handler h .retry) =
        some (s.moved h (.received message (made + 1)) t.db) := by
      simp [serve, handlerStep, aborted, few]
    exact ⟨made + 1, rfl, few, ⟨ended.ready.inv, ended.ready.ended, ended.ready.fresh⟩, attempt.event served,
      ended.disposed.trans disposed⟩
  · rintro n w exc t ⟨made, rfl, -, ready, follows, disposed⟩ called -
    obtain ⟨ended, ⟨tx, aborted⟩, -⟩ := settleBetsForEvent_raises ready called
    exact ⟨made + 1, w.opened, tx, aborted, follows.attempt ended.transacted, ended.disposed.trans disposed⟩

theorem delivers (message : EventFinishedMessage) (same : s.db = start.db) {handler : Handler}
    (delivered : serve s (.handler h (.deliver message)) = some (s.setHandler h handler)) :
    Follows s h handler start := by
  refine ⟨[.handler h (.deliver message)], run_cons.mpr ⟨_, delivered, ?_⟩⟩
  rw [run_nil, Service.moved, ← same]
  rfl

theorem onEventFinished_follows [Tenacity] {V : Type} [Lax V] (server : Server) {payload : Dict String V}
    (valid : EventFinishedMessage.modelValidate payload = some message) (same : s.db = start.db)
    (idle : s.handlers h = .idle) :
    ⦃fun w => ⌜w = start ∧ Ready w⌝⦄ onEventFinished server payload
      ⦃post⟨fun _ w => ⌜Delivered s h message start w⌝, fun _ _ => ⌜False⌝⟩⦄ := by
  have retries : ∀ message' : EventFinishedMessage, message' = message →
      ⦃fun w => ⌜Waiting s h message start 1 w⌝⦄ settleWithRetry server message'.eventId message'.newState .consumer
        ⦃post⟨fun _ w => ⌜Attempted s h message start .committed w⌝,
          fun _ w => ⌜Attempted s h message start .aborted w⌝⟩⦄ := by
    rintro message' rfl
    exact settleWithRetry_follows server
  mvcgen [onEventFinished, retries, ack, reject, log]
  case vc1.h_1 =>
    rename_i invalid _ _
    cases invalid.symm.trans valid
  case vc2.h_2.isTrue =>
    rename_i w started message' valid' _ unsupported _ _
    obtain ⟨rfl, -⟩ := started
    obtain rfl : message' = message := Option.some.inj (valid'.symm.trans valid)
    exact Or.inr ⟨delivers message' same (by simp [serve, handlerStep, idle, unsupported]), rfl⟩
  case vc3.a =>
    rename_i valid' _ _ _
    exact Option.some.inj (valid'.symm.trans valid)
  case vc4.h_2.isFalse.pre =>
    rename_i w started message' valid' _ supported _
    obtain ⟨rfl, ready⟩ := started
    obtain rfl : message' = message := Option.some.inj (valid'.symm.trans valid)
    exact ⟨0, rfl, by decide, ⟨ready.inv, ready.ended, ready.fresh⟩,
      delivers message' same (by simp [serve, handlerStep, idle, not_not.mp supported]), rfl⟩
  case vc5.h_2.isFalse.post.success =>
    rename_i attempted _
    exact attempted.acks
  all_goals
    have attempted := ‹Attempted s h message start .aborted _›
    exact attempted.rejects _

/-- A delivery whose payload validates is handled as the other tasks see it: the run of the handler ends
with the database and the disposition that the coroutine leaves. -/
theorem delivery_follows [Tenacity] {V : Type} [Lax V] (server : Server) {payload : Dict String V}
    (valid : EventFinishedMessage.modelValidate payload = some message) (same : s.db = start.db)
    (idle : s.handlers h = .idle) (ready : Ready start) :
    ∃ w, onEventFinished server payload start = .ok () w ∧ Delivered s h message start w := by
  have handled := triple_iff.mp (onEventFinished_follows server valid same idle) start ⟨rfl, ready⟩
  cases ended : onEventFinished server payload start with
  | error exc w =>
    rw [ended] at handled
    cases handled
  | ok result w =>
    rw [ended] at handled
    exact ⟨w, rfl, handled⟩

end

end BetSettlement.BetMaker
