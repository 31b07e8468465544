import BetSettlement.BetMaker.Service

/-! What a step of the service can do, and what it leaves of the database. -/

namespace BetSettlement.BetMaker
open Python Machine

def Lookup.call (eventId : UUID) : Lookup → Option Call
  | .unavailable => none
  | .answered snapshot => reconcileEvent eventId snapshot

def Lookup.placed (eventId : UUID) (amount : Decimal) (now : Instant) [Pydantic] : Lookup → Placing
  | .unavailable => .raised .lineProviderUnavailable
  | .answered snapshot =>
    match checkBettable now snapshot with
    | .error error => .raised error
    | .ok () => .checked eventId amount

theorem reconcileEvent_settles {eventId : UUID} {snapshot : Option EventSnapshot} {call : Call}
    (h : reconcileEvent eventId snapshot = some call) :
    ∃ settlement, call.settlement = some settlement ∧ settlement.eventId = eventId := by
  cases snapshot with
  | none =>
    obtain rfl := Option.some.inj h
    exact ⟨_, rfl, rfl⟩
  | some snapshot =>
    simp only [reconcileEvent] at h
    split at h
    · obtain rfl := Option.some.inj h
      exact ⟨_, rfl, rfl⟩
    · obtain rfl := Option.some.inj h
      exact ⟨_, rfl, rfl⟩
    · cases h

theorem reconcileEvent_cancels {eventId other : UUID} {snapshot : Option EventSnapshot}
    (h : reconcileEvent eventId snapshot = some (.cancelBetsForEvent other)) : snapshot = none ∧ other = eventId := by
  cases snapshot with
  | none => exact ⟨rfl, (Call.cancelBetsForEvent.inj (Option.some.inj h)).symm⟩
  | some snapshot =>
    simp only [reconcileEvent] at h
    split at h <;> cases h

/-- The events whose lookup is still to come or to be acted upon. -/
def Tick.remaining : Tick → List UUID
  | .idle => []
  | .ready todo => todo
  | .decided eventId _ _ todo => eventId :: todo
  | .running _ todo => todo

theorem mem_getPendingEventIds {db : Database} {id : UUID} {bet : Bet}
    (row : db.table.rows.lookup id = some bet) (pending : bet.status = .pending) :
    bet.eventId ∈ getPendingEventIds db := by
  rw [getPendingEventIds, List.mem_dedup, List.mem_map]
  refine ⟨⟨id, bet⟩, List.mem_filter.mpr ⟨AList.mem_lookup_iff.mp row, ?_⟩, rfl⟩
  simp [pending]

theorem of_mem_getPendingEventIds {db : Database} {eventId : UUID} (h : eventId ∈ getPendingEventIds db) :
    ∃ id bet, db.table.rows.lookup id = some bet ∧ bet.eventId = eventId ∧ bet.status = .pending := by
  rw [getPendingEventIds, List.mem_dedup, List.mem_map] at h
  obtain ⟨⟨id, bet⟩, member, event⟩ := h
  obtain ⟨row, pending⟩ := List.mem_filter.mp member
  exact ⟨id, bet, AList.mem_lookup_iff.mpr row, event, by simpa using pending⟩

section
variable [Pydantic]

inductive Serves (s : Service) : Event → Service → Prop where
  | transaction {action db} (moved : step s.db action = some db)
      (other : ∀ t call clock now, action ≠ .begin t call clock now) :
      Serves s (.transaction action) { s with db }
  | tickRead {eventIds} (idle : s.tick = .idle) (found : eventIds.Perm (getPendingEventIds s.db)) :
      Serves s (.tick (.read eventIds)) { s with tick := .ready eventIds, log := [] }
  | tickPass {eventId todo lookup} (ready : s.tick = .ready (eventId :: todo))
      (nothing : lookup.call eventId = none) :
      Serves s (.tick (.lookup lookup)) { s.record ⟨eventId, lookup, none⟩ with tick := .ready todo }
  | tickDecide {eventId todo snapshot call} (ready : s.tick = .ready (eventId :: todo))
      (calls : reconcileEvent eventId snapshot = some call) :
      Serves s (.tick (.lookup (.answered snapshot))) { s with tick := .decided eventId snapshot call todo }
  | tickBegin {eventId todo snapshot call t clock now db} (decided : s.tick = .decided eventId snapshot call todo)
      (begun : step s.db (.begin t call clock now) = some db) :
      Serves s (.tick (.begin t clock now))
        { { s with db }.record ⟨eventId, .answered snapshot, some t⟩ with tick := .running t todo }
  | tickFails {eventId todo snapshot call} (decided : s.tick = .decided eventId snapshot call todo) :
      Serves s (.tick .fails) { s.record ⟨eventId, .answered snapshot, none⟩ with tick := .ready todo }
  | tickNext {t todo} (running : s.tick = .running t todo)
      (ended : ∃ tx, s.db.slots t = .committed tx ∨ s.db.slots t = .aborted tx) :
      Serves s (.tick .next) { s with tick := .ready todo }
  | tickStop (done : s.tick = .ready []) : Serves s (.tick .stop) { s with tick := .idle }
  | deliver {h message} (idle : s.handlers h = .idle) (supported : message.schemaVersion = schemaVersionSupported) :
      Serves s (.handler h (.deliver message)) (s.setHandler h (.received message 0))
  | poison {h message} (idle : s.handlers h = .idle)
      (unsupported : message.schemaVersion ≠ schemaVersionSupported) :
      Serves s (.handler h (.deliver message)) (s.setHandler h .rejected)
  | attempt {h message attempts t clock now db} (received : s.handlers h = .received message attempts)
      (begun : step s.db (.begin t (settleCall message) clock now) = some db) :
      Serves s (.handler h (.attempt t clock now))
        ({ s with db }.setHandler h (.attempting message (attempts + 1) t))
  | retry {h message attempts t} (attempting : s.handlers h = .attempting message attempts t)
      (ended : ∃ tx, s.db.slots t = .committed tx ∨ s.db.slots t = .aborted tx) (left : attempts < 3) :
      Serves s (.handler h .retry) (s.setHandler h (.received message attempts))
  | ack {h message attempts t tx} (attempting : s.handlers h = .attempting message attempts t)
      (done : s.db.slots t = .committed tx) : Serves s (.handler h .ack) (s.setHandler h (.acked message t))
  | reject {h message attempts t} (attempting : s.handlers h = .attempting message attempts t)
      (ended : ∃ tx, s.db.slots t = .committed tx ∨ s.db.slots t = .aborted tx) :
      Serves s (.handler h .reject) (s.setHandler h .rejected)
  | placeLookup {p eventId amount lookup now} (idle : s.placing p = .idle) :
      Serves s (.place p (.lookup eventId amount lookup now))
        (s.setPlacing p (lookup.placed eventId amount now))
  | placeBegin {p eventId amount t clock now db} (checked : s.placing p = .checked eventId amount)
      (begun : step s.db (.begin t (.placeBet eventId amount) clock now) = some db) :
      Serves s (.place p (.begin t clock now)) ({ s with db }.setPlacing p (.opened t))

theorem setPlacing_other {service : Service} {p q : Nat} {placing : Placing} (other : q ≠ p) :
    (service.setPlacing p placing).placing q = service.placing q := by
  simp [Service.setPlacing, other]

theorem setPlacing_same {service : Service} {p : Nat} {placing : Placing} :
    (service.setPlacing p placing).placing p = placing := by
  simp [Service.setPlacing]

theorem begin_ok {s s' : Service} {t : TxId} {call : Call} {clock now : Instant}
    (h : s.begin t call clock now = some s') :
    ∃ db, step s.db (.begin t call clock now) = some db ∧ s' = { s with db } := by
  obtain ⟨db, begun, same⟩ := Option.map_eq_some_iff.mp h
  exact ⟨db, begun, same.symm⟩

theorem tickStep_serves {s s' : Service} {event : TickEvent} (h : tickStep s event = some s') :
    Serves s (.tick event) s' := by
  cases event with
  | read eventIds =>
    simp only [tickStep] at h
    split at h
    · rename_i idle
      split at h
      · rename_i found
        obtain rfl := Option.some.inj h
        exact .tickRead idle found
      · cases h
    · cases h
  | lookup lookup =>
    simp only [tickStep] at h
    split at h
    · rename_i eventId todo ready
      split at h
      · obtain rfl := Option.some.inj h
        exact .tickPass ready rfl
      · rename_i snapshot
        split at h
        · rename_i nothing
          obtain rfl := Option.some.inj h
          exact .tickPass ready nothing
        · rename_i call calls
          obtain rfl := Option.some.inj h
          exact .tickDecide ready calls
    · cases h
  | begin t clock now =>
    simp only [tickStep] at h
    split at h
    · rename_i eventId snapshot call todo decided
      obtain ⟨s₁, opened, rfl⟩ := Option.map_eq_some_iff.mp h
      obtain ⟨db, begun, rfl⟩ := begin_ok opened
      exact .tickBegin decided begun
    · cases h
  | fails =>
    simp only [tickStep] at h
    split at h
    · rename_i eventId snapshot call todo decided
      obtain rfl := Option.some.inj h
      exact .tickFails decided
    · cases h
  | next =>
    simp only [tickStep] at h
    split at h
    · rename_i t todo running
      split at h
      · rename_i tx ended
        obtain rfl := Option.some.inj h
        exact .tickNext running ⟨tx, Or.inl ended⟩
      · rename_i tx ended
        obtain rfl := Option.some.inj h
        exact .tickNext running ⟨tx, Or.inr ended⟩
      · cases h
    · cases h
  | stop =>
    simp only [tickStep] at h
    split at h
    · rename_i done
      obtain rfl := Option.some.inj h
      exact .tickStop done
    · cases h

theorem handlerStep_serves {s s' : Service} {handler : Nat} {event : HandlerEvent}
    (h : handlerStep s handler event = some s') : Serves s (.handler handler event) s' := by
  cases event with
  | deliver message =>
    simp only [handlerStep] at h
    split at h
    · rename_i idle
      split at h
      · rename_i supported
        obtain rfl := Option.some.inj h
        exact .deliver idle supported
      · rename_i unsupported
        obtain rfl := Option.some.inj h
        exact .poison idle unsupported
    · cases h
  | attempt t clock now =>
    simp only [handlerStep] at h
    split at h
    · rename_i message attempts received
      obtain ⟨s₁, opened, rfl⟩ := Option.map_eq_some_iff.mp h
      obtain ⟨db, begun, rfl⟩ := begin_ok opened
      exact .attempt received begun
    · cases h
  | retry =>
    simp only [handlerStep] at h
    split at h
    · rename_i message attempts t attempting
      have retries (ended : ∃ tx, s.db.slots t = .committed tx ∨ s.db.slots t = .aborted tx)
          (h : (if attempts < 3 then some (s.setHandler handler (.received message attempts)) else none) = some s') :
          Serves s (.handler handler .retry) s' := by
        split at h
        · rename_i left
          obtain rfl := Option.some.inj h
          exact .retry attempting ended left
        · cases h
      split at h
      · rename_i tx aborted
        exact retries ⟨tx, Or.inr aborted⟩ h
      · rename_i tx committed
        exact retries ⟨tx, Or.inl committed⟩ h
      · cases h
    · cases h
  | ack =>
    simp only [handlerStep] at h
    split at h
    · rename_i message attempts t attempting
      split at h
      · rename_i tx done
        obtain rfl := Option.some.inj h
        exact .ack attempting done
      · cases h
    · cases h
  | reject =>
    simp only [handlerStep] at h
    split at h
    · rename_i message attempts t attempting
      split at h
      · rename_i tx aborted
        obtain rfl := Option.some.inj h
        exact .reject attempting ⟨tx, Or.inr aborted⟩
      · rename_i tx committed
        obtain rfl := Option.some.inj h
        exact .reject attempting ⟨tx, Or.inl committed⟩
      · cases h
    · cases h

theorem placeStep_serves {s s' : Service} {p : Nat} {event : PlaceEvent} (h : placeStep s p event = some s') :
    Serves s (.place p event) s' := by
  cases event with
  | lookup eventId amount lookup now =>
    simp only [placeStep] at h
    split at h
    · rename_i idle
      have same : s' = s.setPlacing p (lookup.placed eventId amount now) := by
        unfold Lookup.placed
        split at h
        · exact (Option.some.inj h).symm
        · split at h <;> simp_all
      exact same ▸ .placeLookup idle
    · cases h
  | begin t clock now =>
    simp only [placeStep] at h
    split at h
    · rename_i eventId amount checked
      obtain ⟨s₁, opened, rfl⟩ := Option.map_eq_some_iff.mp h
      obtain ⟨db, begun, rfl⟩ := begin_ok opened
      exact .placeBegin checked begun
    · cases h

theorem serve_serves {s s' : Service} {event : Event} (h : serve s event = some s') : Serves s event s' := by
  cases event with
  | transaction action =>
    have moved : (∀ t call clock now, action ≠ .begin t call clock now) ∧
        ((step s.db action).map fun db => { s with db }) = some s' := by
      cases action with
      | begin t call clock now => cases h
      | _ => exact ⟨by simp, h⟩
    obtain ⟨db, next, rfl⟩ := Option.map_eq_some_iff.mp moved.2
    exact .transaction next moved.1
  | tick event => exact tickStep_serves h
  | handler handler event => exact handlerStep_serves h
  | place p event => exact placeStep_serves h

theorem serves_serve {s s' : Service} {event : Event} (h : Serves s event s') : serve s event = some s' := by
  cases h with
  | @transaction action db moved other =>
    cases action with
    | begin t call clock now => exact absurd rfl (other t call clock now)
    | _ => simp only [serve, moved, Option.map_some]
  | tickRead idle found => simp only [serve, tickStep, idle, if_pos found]
  | @tickPass eventId todo lookup ready nothing =>
    cases lookup with
    | unavailable => simp only [serve, tickStep, ready]
    | answered snapshot =>
      change reconcileEvent eventId snapshot = none at nothing
      simp only [serve, tickStep, ready, nothing]
  | tickDecide ready calls => simp only [serve, tickStep, ready, calls]
  | tickBegin decided begun => simp only [serve, tickStep, decided, Service.begin, begun, Option.map_some]
  | tickFails decided => simp only [serve, tickStep, decided]
  | tickNext running ended =>
    obtain ⟨tx, committed | aborted⟩ := ended
    · simp only [serve, tickStep, running, committed]
    · simp only [serve, tickStep, running, aborted]
  | tickStop done => simp only [serve, tickStep, done]
  | deliver idle supported => simp only [serve, handlerStep, idle, if_pos supported]
  | poison idle unsupported => simp only [serve, handlerStep, idle, if_neg unsupported]
  | attempt received begun => simp only [serve, handlerStep, received, Service.begin, begun, Option.map_some]
  | retry attempting ended left =>
    obtain ⟨tx, committed | aborted⟩ := ended
    · simp only [serve, handlerStep, attempting, committed, if_pos left]
    · simp only [serve, handlerStep, attempting, aborted, if_pos left]
  | ack attempting done => simp only [serve, handlerStep, attempting, done]
  | reject attempting ended =>
    obtain ⟨tx, committed | aborted⟩ := ended
    · simp only [serve, handlerStep, attempting, committed]
    · simp only [serve, handlerStep, attempting, aborted]
  | @placeLookup p eventId amount lookup now idle =>
    cases lookup with
    | unavailable => simp only [serve, placeStep, idle, Lookup.placed]
    | answered snapshot =>
      cases checked : checkBettable now snapshot <;> simp only [serve, placeStep, idle, Lookup.placed, checked]
  | placeBegin checked begun => simp only [serve, placeStep, checked, Service.begin, begun, Option.map_some]

theorem serve_db {s s' : Service} {event : Event} (h : serve s event = some s') :
    s'.db = s.db ∨ ∃ action, step s.db action = some s'.db := by
  cases serve_serves h with
  | transaction moved other => exact Or.inr ⟨_, moved⟩
  | tickBegin decided begun => exact Or.inr ⟨_, begun⟩
  | attempt received begun => exact Or.inr ⟨_, begun⟩
  | placeBegin checked begun => exact Or.inr ⟨_, begun⟩
  | _ => exact Or.inl rfl

/-- The database of a run of the service runs as the transactions do. -/
theorem run_db {s s' : Service} {events : List Event} (h : run serve s events = some s') :
    ∃ actions, run step s.db actions = some s'.db := by
  refine run_projects Service.db ?_ h
  intro s event s' next
  rcases serve_db next with same | ⟨action, moved⟩
  · exact ⟨[], run_nil.mpr same.symm⟩
  · exact ⟨[action], run_cons.mpr ⟨_, moved, run_nil.mpr rfl⟩⟩

theorem run_service {rows : AList fun _ : UUID => Bet} {s : Service} {events : List Event}
    (h : run serve (Service.start rows) events = some s) : Inv s.db ∧ Accounts s.db := by
  obtain ⟨actions, moved⟩ := run_db h
  exact run_accounts (start_inv rows) (start_accounts rows) moved

/-- The call that the tick is about to make is the answer's. -/
def Service.Reasoned (s : Service) : Prop :=
  ∀ eventId snapshot call todo, s.tick = .decided eventId snapshot call todo →
    reconcileEvent eventId snapshot = some call

theorem reasoned_step {s s' : Service} {event : Event} (h : s.Reasoned) (next : serve s event = some s') :
    s'.Reasoned := by
  intro eventId snapshot call todo decided
  cases serve_serves next with
  | tickDecide ready calls =>
    cases decided
    exact calls
  | tickRead | tickPass | tickBegin | tickFails | tickNext | tickStop => cases decided
  | _ => exact h eventId snapshot call todo decided

def Event.tx : Event → Option TxId
  | .transaction action => some action.tx
  | .tick (.begin t ..) | .handler _ (.attempt t ..) | .place _ (.begin t ..) => some t
  | _ => none

theorem serve_other_slot {s s' : Service} {event : Event} {u : TxId} (h : serve s event = some s')
    (other : event.tx ≠ some u) : s'.db.slots u = s.db.slots u := by
  cases serve_serves h with
  | transaction moved _ => exact step_other_slot moved fun same => other (congrArg some same.symm)
  | tickBegin _ begun | attempt _ begun | placeBegin _ begun =>
    exact step_other_slot begun fun same => other (congrArg some same.symm)
  | _ => rfl

theorem run_serve_other_slot {s s' : Service} {events : List Event} {u : TxId}
    (h : run serve s events = some s') (others : ∀ event ∈ events, event.tx ≠ some u) :
    s'.db.slots u = s.db.slots u := by
  have keep : ∀ before event after, Event.tx event ≠ some u → before.db.slots u = s.db.slots u →
      serve before event = some after → after.db.slots u = s.db.slots u := by
    intro before event after other same next
    exact (serve_other_slot next other).trans same
  exact run_invariant_of keep others rfl h

end

/-- Event 7 was won. -/
def wonMessage : EventFinishedMessage :=
  { schemaVersion := 1, eventId := 7, newState := .finishedWin, coefficient := ⟨false, 150, -2⟩, occurredAt := 0,
    correlationId := "r", versioned := schemaVersion_default, admitted := by decide }

end BetSettlement.BetMaker
