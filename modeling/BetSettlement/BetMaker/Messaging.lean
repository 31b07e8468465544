import BetSettlement.BetMaker.Attempt
import BetSettlement.BetMaker.Race
import BetSettlement.Payload

/-!
# The consumer's ack ladder

A delivery is acknowledged after a commit. It is dead-lettered when its payload is poison, or when
no attempt has committed.
-/

namespace BetSettlement.BetMaker
open Python Machine Std.Do

set_option mvcgen.warning false

def isTransient : Exc → Bool
  | .dbapi .operational _ => true
  | .dbapi _ connectionInvalidated => connectionInvalidated
  | .timeout => true
  | _ => false

def logBeforeSleep (attemptNumber : Nat) (exc : Exc) (w : World) : World :=
  { w with logged := w.logged ++ [.settleTransientRetry attemptNumber exc] }

/-- The call, with a record of how it ended. -/
def attempted (fn : Coroutine SettleResult) : Coroutine SettleResult := fun w =>
  match fn w with
  | .ok result w' => .ok result { w' with attempts := w'.attempts ++ [.ok result] }
  | .error exc w' => .error exc { w' with attempts := w'.attempts ++ [.error exc] }

def settleWithRetry [Tenacity] (server : Server) (eventId : UUID) (terminalState : EventTerminalState)
    (settledVia : SettledVia) : Coroutine SettleResult :=
  retry 3 isTransient logBeforeSleep (attempted (settleBetsForEvent server eventId terminalState settledVia))

def ack : Coroutine Unit :=
  modify fun w => { w with disposed := w.disposed ++ [.ack] }

def reject (requeue : Bool) : Coroutine Unit :=
  modify fun w => { w with disposed := w.disposed ++ [.reject requeue] }

def onEventFinished [Pydantic] [Tenacity] {V : Type} [Lax V] (server : Server) (payload : Dict String V) :
    Coroutine Unit := do
  try
    match EventFinishedMessage.modelValidate payload with
    | none => throw .validation
    | some message =>
      if message.schemaVersion ≠ schemaVersionSupported then
        throw .unsupportedSchemaVersion
      modify fun w => { w with uow := {} }
      let _ ← settleWithRetry server message.eventId message.newState .consumer
      ack
  catch exc =>
    match exc with
    | .validation | .unsupportedSchemaVersion | .dbapi .integrity _ =>
      log (.settlePoisonToDlq exc)
      reject false
    | _ =>
      log (.settleTransientExhausted exc)
      reject false

/-! ### The retry loop -/

/-- The attempts so far have all failed, and nothing is left of them. -/
structure Retrying (server : Server) (start : World) (failures : List Exc) (w : World) : Prop where
  ready : Ready w
  rows : w.db.table.rows = start.db.table.rows
  opened : w.opened = start.opened + failures.length
  disposed : w.disposed = start.disposed
  attempts : w.attempts = start.attempts ++ failures.map .error
  transient : ∀ exc ∈ failures, isTransient exc = true
  raised : ∀ (k : Nat) exc, failures[k]? = some exc → server.Raises (start.opened + k) exc

/-- What the last attempt leaves. -/
structure Concluded (server : Server) (start : World) (failures : List Exc) (outcome : Except Exc SettleResult)
    (w : World) : Prop where
  ready : Ready w
  disposed : w.disposed = start.disposed
  attempts : w.attempts = start.attempts ++ failures.map .error ++ [outcome]
  few : failures.length < 3
  transient : ∀ exc ∈ failures, isTransient exc = true
  raised : ∀ (k : Nat) exc, failures[k]? = some exc → server.Raises (start.opened + k) exc

def Succeeded (server : Server) (start : World) (settlement : Settlement) (w : World) : Prop :=
  ∃ failures result, Concluded server start failures (.ok result) w ∧ ∀ id, w.db.table.rows.lookup id =
    (start.db.table.rows.lookup id).map (settlement.apply (server.now (start.opened + failures.length)))

def GaveUp (server : Server) (start : World) (exc : Exc) (w : World) : Prop :=
  ∃ failures, Concluded server start failures (.error exc) w ∧ w.db.table.rows = start.db.table.rows ∧
    server.Raises (start.opened + failures.length) exc ∧ (isTransient exc = true → failures.length = 2)

section
variable {server : Server} {start : World} {failures : List Exc}

theorem Retrying.fails {w t : World} {exc : Exc} (retrying : Retrying server start failures w)
    {call : Call} (failed : Failed server w call exc t) (repeats : isTransient exc = true) (logged : List LogEntry) :
    Retrying server start (failures ++ [exc]) { t with attempts := t.attempts ++ [.error exc], logged } := by
  obtain ⟨ended, -, rows, raises⟩ := failed
  refine ⟨⟨ended.ready.inv, ended.ready.ended, ended.ready.fresh⟩, rows.trans retrying.rows, ?_,
    ended.disposed.trans retrying.disposed, ?_, ?_, ?_⟩
  · change t.opened = _
    rw [ended.opened, retrying.opened, List.length_append]
    rfl
  · simp [ended.attempts, retrying.attempts]
  · intro exc' member
    rcases List.mem_append.mp member with before | now
    · exact retrying.transient exc' before
    · exact List.mem_singleton.mp now ▸ repeats
  · intro k exc' found
    by_cases before : k < failures.length
    · rw [List.getElem?_append_left before] at found
      exact retrying.raised k exc' found
    · rw [List.getElem?_append_right (not_lt.mp before)] at found
      obtain ⟨inside, rfl⟩ := List.getElem?_eq_some_iff.mp found
      have last : k = failures.length := by
        rw [List.length_singleton] at inside
        omega
      simpa [last, ← retrying.opened] using raises

theorem Retrying.concludes {w t : World} {call : Call} (outcome : Except Exc SettleResult)
    (retrying : Retrying server start failures w) (few : failures.length < 3) (ended : Ended w call t) :
    Concluded server start failures outcome { t with attempts := t.attempts ++ [outcome] } where
  ready := ⟨ended.ready.inv, ended.ready.ended, ended.ready.fresh⟩
  disposed := ended.disposed.trans retrying.disposed
  attempts := by simp [ended.attempts, retrying.attempts]
  few := few
  transient := retrying.transient
  raised := retrying.raised

/-- `I n` holds before the `n`-th attempt. -/
theorem settleWithRetry_rule [Tenacity] {eventId : UUID} {terminalState : EventTerminalState} {settledVia : SettledVia}
    {I : Nat → World → Prop} {Q : World → Prop} {E : Exc → World → Prop}
    (returns : ∀ n w result t, I n w → settleBetsForEvent server eventId terminalState settledVia w = .ok result t →
      Q { t with attempts := t.attempts ++ [.ok result] })
    (repeats : ∀ n w exc t, I n w → settleBetsForEvent server eventId terminalState settledVia w = .error exc t →
      isTransient exc = true → n < 3 →
        I (n + 1) (logBeforeSleep n exc { t with attempts := t.attempts ++ [.error exc] }))
    (stops : ∀ n w exc t, I n w → settleBetsForEvent server eventId terminalState settledVia w = .error exc t →
      (isTransient exc = true → ¬ n < 3) → E exc { t with attempts := t.attempts ++ [.error exc] }) :
    ⦃fun w => ⌜I 1 w⌝⦄ settleWithRetry server eventId terminalState settledVia
      ⦃post⟨fun _ w => ⌜Q w⌝, fun exc w => ⌜E exc w⌝⟩⦄ := by
  refine attempt_spec (fun n => ?_) 1
  rw [triple_iff]
  intro w holds
  unfold attempted
  cases called : settleBetsForEvent server eventId terminalState settledVia w with
  | ok result t => exact returns n w result t holds called
  | error exc t =>
    change if isTransient exc = true ∧ n < 3 then _ else _
    by_cases again : isTransient exc = true ∧ n < 3
    · rw [if_pos again]
      exact repeats n w exc t holds called again.1 again.2
    · rw [if_neg again]
      exact stops n w exc t holds called fun transient few => again ⟨transient, few⟩

theorem settleWithRetry_spec [Tenacity] (server : Server) (start : World) (eventId : UUID)
    (terminalState : EventTerminalState) (settledVia : SettledVia) :
    ⦃fun w => ⌜Retrying server start [] w⌝⦄ settleWithRetry server eventId terminalState settledVia
      ⦃post⟨fun _ w => ⌜Succeeded server start { eventId, status := terminalToStatus terminalState, settledVia } w⌝,
        fun exc w => ⌜GaveUp server start exc w⌝⟩⦄ := by
  have rule : ⦃fun w => ⌜∃ failures, Retrying server start failures w ∧ 1 = failures.length + 1 ∧ 1 ≤ 3⌝⦄
      settleWithRetry server eventId terminalState settledVia
      ⦃post⟨fun _ w => ⌜Succeeded server start { eventId, status := terminalToStatus terminalState, settledVia } w⌝,
        fun exc w => ⌜GaveUp server start exc w⌝⟩⦄ := by
    refine @settleWithRetry_rule server _ _ _ _
      (fun n w => ∃ failures, Retrying server start failures w ∧ n = failures.length + 1 ∧ n ≤ 3) _ _ ?_ ?_ ?_
    · rintro n w result t ⟨failures, retrying, rfl, few⟩ called
      obtain ⟨ended, -, rows⟩ := settleBetsForEvent_returns retrying.ready called
      refine ⟨failures, result, retrying.concludes (.ok result) (by omega) ended, fun id => ?_⟩
      rw [← retrying.opened, ← retrying.rows]
      exact rows id
    · rintro n w exc t ⟨failures, retrying, rfl, -⟩ called transient few
      have failed := settleBetsForEvent_raises retrying.ready called
      exact ⟨failures ++ [exc], retrying.fails failed transient _, by simp, by omega⟩
    · rintro n w exc t ⟨failures, retrying, rfl, few⟩ called last
      obtain ⟨ended, -, rows, raises⟩ := settleBetsForEvent_raises retrying.ready called
      refine ⟨failures, retrying.concludes (.error exc) (by omega) ended, rows.trans retrying.rows,
        retrying.opened ▸ raises, fun transient => ?_⟩
      have full := last transient
      omega
  rw [triple_iff] at rule ⊢
  intro w retrying
  exact rule w ⟨[], retrying, rfl, by decide⟩

theorem failed_get {failures : List Exc} {last : Except Exc SettleResult} {k : Nat} {exc : Exc}
    (early : failures[k]? = some exc) : (failures.map Except.error ++ [last])[k]? = some (.error exc) := by
  obtain ⟨inside, rfl⟩ := List.getElem?_eq_some_iff.mp early
  rw [List.getElem?_append_left (by simpa using inside)]
  simp [inside]

/-- Another attempt is made after each of the first two that failed with a transient error. -/
theorem Concluded.ladder {server : Server} {start w : World} {failures : List Exc} {outcome : Except Exc SettleResult}
    (concluded : Concluded server start failures outcome w)
    (stops : ∀ exc, outcome = .error exc → isTransient exc = true → failures.length = 2) (k : Nat) :
    k < (failures.map Except.error ++ [outcome]).length ↔ k < 3 ∧ ∀ j < k, ∃ exc,
      (failures.map Except.error ++ [outcome])[j]? = some (.error exc) ∧ isTransient exc = true := by
  have few := concluded.few
  rw [List.length_append, List.length_map, List.length_singleton]
  constructor
  · intro made
    refine ⟨by omega, fun j earlier => ?_⟩
    have inside : j < failures.length := by omega
    have early := List.getElem?_eq_getElem inside
    exact ⟨failures[j], failed_get early, concluded.transient _ (List.getElem_mem inside)⟩
  · rintro ⟨bound, failed⟩
    by_contra past
    obtain ⟨exc, found, transient⟩ := failed failures.length (by omega)
    rw [List.getElem?_append_right (by simp)] at found
    have same : outcome = .error exc := by simpa using found
    have full := stops exc same transient
    omega

/-- An attempt raises only what the server raised in its transaction. -/
theorem Concluded.raises {server : Server} {start w : World} {failures : List Exc} {outcome : Except Exc SettleResult}
    (concluded : Concluded server start failures outcome w)
    (last : ∀ exc, outcome = .error exc → server.Raises (start.opened + failures.length) exc) (k : Nat) (exc : Exc)
    (found : (failures.map Except.error ++ [outcome])[k]? = some (.error exc)) :
    server.Raises (start.opened + k) exc := by
  by_cases early : k < failures.length
  · rw [List.getElem?_append_left (by simpa using early)] at found
    exact concluded.raised k exc (by simpa using found)
  · rw [List.getElem?_append_right (by simpa using early)] at found
    obtain ⟨inside, same⟩ := List.getElem?_eq_some_iff.mp found
    rw [List.length_map, List.length_singleton] at inside
    obtain rfl : k = failures.length := by omega
    exact last exc (by simpa using same)

end

/-! ### The handler -/

section
variable [Pydantic] [Tenacity] {V : Type} [Lax V]

/-- The payload validates as this message, of the supported version. -/
def Accepted (payload : Dict String V) (message : EventFinishedMessage) : Prop :=
  EventFinishedMessage.modelValidate payload = some message ∧ message.schemaVersion = schemaVersionSupported

def consumed (message : EventFinishedMessage) : Settlement :=
  { eventId := message.eventId, status := terminalToStatus message.newState, settledVia := .consumer }

/-- How the delivery was disposed of, and in which world before that. -/
inductive Handled (server : Server) (payload : Dict String V) (start before : World) : Disposition → Prop where
  | settled {message} (accepted : Accepted payload message)
      (succeeded : Succeeded server start (consumed message) before) : Handled server payload start before .ack
  | gaveUp {message exc} (accepted : Accepted payload message) (gaveUp : GaveUp server start exc before) :
      Handled server payload start before (.reject false)
  | poison (refused : ∀ message, ¬ Accepted payload message) (same : before = start) :
      Handled server payload start before (.reject false)

theorem onEventFinished_spec (server : Server) (payload : Dict String V) (start : World) :
    ⦃fun w => ⌜w = start ∧ Ready w⌝⦄ onEventFinished server payload
      ⦃post⟨fun _ w => ⌜∃ before logged disposition, Handled server payload start before disposition ∧
          w = { before with logged, disposed := before.disposed ++ [disposition] }⌝,
        fun _ _ => ⌜False⌝⟩⦄ := by
  have retries := fun message : EventFinishedMessage =>
    settleWithRetry_spec server start message.eventId message.newState .consumer
  mvcgen [onEventFinished, retries, ack, reject, log]
  case vc1.h_1 =>
    rename_i w started invalid _ _
    refine ⟨w, _, .reject false, .poison (fun message accepted => ?_) started.1, rfl⟩
    cases invalid.symm.trans accepted.1
  case vc2.h_2.isTrue =>
    rename_i w started message valid _ unsupported _ _
    refine ⟨w, _, .reject false, .poison (fun message' accepted => ?_) started.1, rfl⟩
    obtain rfl : message = message' := Option.some.inj (valid.symm.trans accepted.1)
    exact unsupported accepted.2
  case vc3.h_2.isFalse.pre =>
    rename_i w started message valid _ supported _
    obtain ⟨rfl, ready⟩ := started
    exact ⟨⟨ready.inv, ready.ended, ready.fresh⟩, rfl, rfl, rfl, (List.append_nil _).symm, by simp, by simp⟩
  case vc4.h_2.isFalse.post.success =>
    rename_i w started message valid _ supported _ result before succeeded _
    exact ⟨before, _, .ack, .settled ⟨valid, not_not.mp supported⟩ succeeded, rfl⟩
  all_goals
    have gaveUp := ‹GaveUp server start _ _›
    have accepted : Accepted payload _ := ⟨‹_›, not_not.mp ‹_›⟩
    exact ⟨_, _, .reject false, .gaveUp accepted gaveUp, rfl⟩

/-- Every delivery is acknowledged or dead-lettered once, after at most three attempts that leave nothing
behind, and it is acknowledged exactly when one of them has settled its event. -/
theorem ack_ladder (server : Server) (payload : Dict String V) {w : World} (ready : Ready w) :
    ∃ w' disposition attempts, onEventFinished server payload w = .ok () w' ∧
      w'.disposed = w.disposed ++ [disposition] ∧ (disposition = .ack ∨ disposition = .reject false) ∧
      w'.attempts = w.attempts ++ attempts ∧ attempts.length ≤ 3 ∧
      (∀ k, k < attempts.length ↔ (∃ message, Accepted payload message) ∧ k < 3 ∧
        ∀ j < k, ∃ exc, attempts[j]? = some (.error exc) ∧ isTransient exc = true) ∧
      (∀ (k : Nat) exc, attempts[k]? = some (.error exc) → server.Raises (w.opened + k) exc) ∧
      (disposition = .ack ↔ (∃ message, Accepted payload message) ∧ ∃ result, .ok result ∈ attempts) ∧
      (disposition = .reject false → w'.db.table.rows = w.db.table.rows) ∧
      (disposition = .ack → ∃ (message : EventFinishedMessage) (k : Nat) (result : SettleResult),
        Accepted payload message ∧ attempts[k]? = some (.ok result) ∧ ∀ id, w'.db.table.rows.lookup id =
          (w.db.table.rows.lookup id).map ((consumed message).apply (server.now (w.opened + k)))) ∧
      Ready w' := by
  have handled := triple_iff.mp (onEventFinished_spec server payload w) w ⟨rfl, ready⟩
  cases ended : onEventFinished server payload w with
  | error exc w' =>
    rw [ended] at handled
    cases handled
  | ok result w' =>
    rw [ended] at handled
    obtain ⟨before, logged, disposition, handled, rfl⟩ := handled
    cases handled with
    | @settled message accepted succeeded =>
      obtain ⟨failures, result, concluded, rows⟩ := succeeded
      refine ⟨_, .ack, failures.map .error ++ [.ok result], rfl, by rw [concluded.disposed], Or.inl rfl,
        concluded.attempts.trans (List.append_assoc _ _ _), ?_, fun k => ?_, ?_, ?_, by simp, fun _ => ?_, ?_⟩
      · have few := concluded.few
        simpa using few
      · simp only [concluded.ladder (by simp) k, show (∃ message, Accepted payload message) from ⟨message, accepted⟩,
          true_and]
      · exact concluded.raises (by simp)
      · exact iff_of_true rfl ⟨⟨message, accepted⟩, result, by simp⟩
      · exact ⟨message, failures.length, result, accepted, by simp, rows⟩
      · exact ⟨concluded.ready.inv, concluded.ready.ended, concluded.ready.fresh⟩
    | @gaveUp message exc accepted gaveUp =>
      obtain ⟨failures, concluded, rows, raises, stops⟩ := gaveUp
      refine ⟨_, .reject false, failures.map .error ++ [.error exc], rfl, by rw [concluded.disposed], Or.inr rfl,
        concluded.attempts.trans (List.append_assoc _ _ _), ?_, fun k => ?_, ?_, ?_, fun _ => rows, by simp, ?_⟩
      · have few := concluded.few
        simpa using few
      · simp only [concluded.ladder (by simpa using stops) k,
          show (∃ message, Accepted payload message) from ⟨message, accepted⟩, true_and]
      · exact concluded.raises (by simpa using raises)
      · simp
      · exact ⟨concluded.ready.inv, concluded.ready.ended, concluded.ready.fresh⟩
    | poison refused same =>
      subst same
      refine ⟨_, .reject false, [], rfl, rfl, Or.inr rfl, (List.append_nil _).symm, by simp, ?_, by simp, by simp,
        fun _ => rfl, by simp, ?_⟩
      · simp [refused]
      · exact ⟨ready.inv, ready.ended, ready.fresh⟩

end

/-- The integers and strings of a JSON object. -/
inductive Json where
  | number (n : Int)
  | text (s : String)

instance : Lax Json where
  int
    | .number n => some n
    | .text _ => none
  uuid
    | .number _ => none
    | .text s => if s.length = 32 ∧ s.toList.all Char.isDigit then
        some (BitVec.ofNat 128 (s.toList.foldl (fun n c => 16 * n + (c.toNat - '0'.toNat)) 0))
      else none
  enum ofValue
    | .number _ => none
    | .text s => ofValue s
  decimal
    | .number n => some ⟨decide (n < 0), n.natAbs, 0⟩
    | .text _ => none
  awareDatetime
    | .number n => some (n * 1000000)
    | .text _ => none
  str
    | .number _ => none
    | .text s => some s

def wonPayload : Dict String Json :=
  AList.insert "event_id" (.text "00000000000000000000000000000007") <| .insert "new_state" (.text "FINISHED_WIN") <|
    .insert "coefficient" (.number 2) <| .insert "occurred_at" (.number 0) <| .singleton "correlation_id" (.text "r")

/-- The first commit fails with an error of the connection. -/
def lostCommit : Server where
  fault t statement := if t = 0 ∧ statement = .commit then some (.dbapi .operational true) else none
  now t := 10 + t
  clock t := 10 + t

theorem ack_ladder_lostCommit : ∃ w, onEventFinished lostCommit wonPayload { db := .start oneBet } = .ok () w ∧
    w.disposed = [.ack] ∧ w.db.status 100 = some .won := by
  obtain ⟨w, disposition, attempts, ended, disposed, -, -, -, -, -, -, -, settled, -⟩ :=
    ack_ladder lostCommit wonPayload (start_ready oneBet)
  have acked : (match onEventFinished lostCommit wonPayload { db := .start oneBet } with
    | .ok _ w => w.disposed
    | .error _ _ => []) = [.ack] := by decide
  rw [ended] at acked
  obtain rfl : disposition = .ack := by simpa [disposed] using acked
  obtain ⟨message, k, result, accepted, -, rows⟩ := settled rfl
  have parsed : (EventFinishedMessage.modelValidate wonPayload).map consumed =
      some { eventId := 7, status := .won, settledVia := .consumer } := by decide
  rw [accepted.1] at parsed
  refine ⟨w, ended, acked, ?_⟩
  rw [Database.status, rows, Option.some.inj parsed]
  rfl

end BetSettlement.BetMaker
