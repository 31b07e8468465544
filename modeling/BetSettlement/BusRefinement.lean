import Mathlib.Data.Nat.Pairing
import BetSettlement.AtLeastOnce

/-!
# The bus as a channel

Whatever the broker does is something that a channel may do that loses, repeats, delays and reorders its
messages, and a process of bet-maker that ends leaves a database that it could have come to by itself. What
holds of the rows on such a channel therefore holds of them on the bus.
-/

namespace BetSettlement
open Python Machine BetMaker

section
variable [Pydantic]

theorem sent_newPublications (before after : LineProvider.State) :
    sent before after = (newPublications before after).map LineProvider.Publication.message := rfl

/-! ### The processes of bet-maker, one after the other -/

/-- The handlers and requests of process `epoch`, among those of all processes. -/
def BetMaker.Event.within (epoch : Nat) : Event → Event
  | .handler h event => .handler (Nat.pair epoch h) event
  | .place p event => .place (Nat.pair epoch p) event
  | event => event

/-- `m` runs on where `s` is process `epoch` of bet-maker. -/
structure Mirrored (epoch : Nat) (s m : Service) : Prop where
  db : m.db = s.db
  tick : m.tick = s.tick
  handlers : ∀ h, m.handlers (Nat.pair epoch h) = s.handlers h
  placing : ∀ p, m.placing (Nat.pair epoch p) = s.placing p
  laterHandlers : ∀ later > epoch, ∀ h, m.handlers (Nat.pair later h) = .idle
  laterPlacing : ∀ later > epoch, ∀ p, m.placing (Nat.pair later p) = .idle

theorem start_mirrored (rows : AList fun _ : UUID => Bet) : Mirrored 0 (Service.start rows) (Service.start rows) :=
  ⟨rfl, rfl, fun _ => rfl, fun _ => rfl, fun _ _ _ => rfl, fun _ _ _ => rfl⟩

theorem Mirrored.ticks {epoch : Nat} {s m s' m' : Service} (h : Mirrored epoch s m) (db : m'.db = s'.db)
    (tick : m'.tick = s'.tick) (handlers : s'.handlers = s.handlers ∧ m'.handlers = m.handlers)
    (placing : s'.placing = s.placing ∧ m'.placing = m.placing) : Mirrored epoch s' m' := by
  refine ⟨db, tick, ?_, ?_, ?_, ?_⟩
  · rw [handlers.1, handlers.2]
    exact h.handlers
  · rw [placing.1, placing.2]
    exact h.placing
  · rw [handlers.2]
    exact h.laterHandlers
  · rw [placing.2]
    exact h.laterPlacing

omit [Pydantic] in
theorem pair_later {epoch later : Nat} (after : epoch < later) (h k : Nat) : Nat.pair later k ≠ Nat.pair epoch h :=
  fun same => after.ne' (Nat.pair_eq_pair.mp same).1

theorem Mirrored.setHandler {epoch : Nat} {s m : Service} (mirrored : Mirrored epoch s m) (h : Nat)
    (handler : Handler) : Mirrored epoch (s.setHandler h handler) (m.setHandler (Nat.pair epoch h) handler) where
  db := mirrored.db
  tick := mirrored.tick
  handlers k := by
    rw [setHandler_handler, setHandler_handler, mirrored.handlers]
    simp only [Nat.pair_eq_pair, true_and]
  placing := mirrored.placing
  laterHandlers later after k := by
    rw [setHandler_handler, if_neg (pair_later after h k)]
    exact mirrored.laterHandlers later after k
  laterPlacing := mirrored.laterPlacing

theorem Mirrored.setPlacing {epoch : Nat} {s m : Service} (mirrored : Mirrored epoch s m) (p : Nat)
    (placing : Placing) : Mirrored epoch (s.setPlacing p placing) (m.setPlacing (Nat.pair epoch p) placing) where
  db := mirrored.db
  tick := mirrored.tick
  handlers := mirrored.handlers
  placing q := by
    by_cases same : q = p
    · subst same
      rw [setPlacing_same, setPlacing_same]
    · rw [setPlacing_other same, setPlacing_other (by simpa [Nat.pair_eq_pair] using same)]
      exact mirrored.placing q
  laterHandlers := mirrored.laterHandlers
  laterPlacing later after q := by
    rw [setPlacing_other (pair_later after p q)]
    exact mirrored.laterPlacing later after q

theorem Mirrored.begun {epoch : Nat} {s m : Service} (mirrored : Mirrored epoch s m) (db : Database) :
    Mirrored epoch { s with db } { m with db } :=
  mirrored.ticks rfl mirrored.tick ⟨rfl, rfl⟩ ⟨rfl, rfl⟩

theorem mirrored_serves {epoch : Nat} {s m s' : Service} {event : Event} (mirrored : Mirrored epoch s m)
    (next : Serves s event s') : ∃ m', Serves m (event.within epoch) m' ∧ Mirrored epoch s' m' := by
  have ⟨db, tick, handlers, placing, _, _⟩ := mirrored
  cases next with
  | transaction moved other => exact ⟨_, .transaction (db ▸ moved) other, mirrored.begun _⟩
  | tickRead idle found =>
    exact ⟨_, .tickRead (tick.trans idle) (db ▸ found), mirrored.ticks db rfl ⟨rfl, rfl⟩ ⟨rfl, rfl⟩⟩
  | tickPass ready nothing =>
    exact ⟨_, .tickPass (tick.trans ready) nothing, mirrored.ticks db rfl ⟨rfl, rfl⟩ ⟨rfl, rfl⟩⟩
  | tickDecide ready calls =>
    exact ⟨_, .tickDecide (tick.trans ready) calls, mirrored.ticks db rfl ⟨rfl, rfl⟩ ⟨rfl, rfl⟩⟩
  | tickBegin decided begun =>
    exact ⟨_, .tickBegin (tick.trans decided) (db ▸ begun), mirrored.ticks rfl rfl ⟨rfl, rfl⟩ ⟨rfl, rfl⟩⟩
  | tickFails decided =>
    exact ⟨_, .tickFails (tick.trans decided), mirrored.ticks db rfl ⟨rfl, rfl⟩ ⟨rfl, rfl⟩⟩
  | tickNext running ended =>
    exact ⟨_, .tickNext (tick.trans running) (db ▸ ended), mirrored.ticks db rfl ⟨rfl, rfl⟩ ⟨rfl, rfl⟩⟩
  | tickStop done => exact ⟨_, .tickStop (tick.trans done), mirrored.ticks db rfl ⟨rfl, rfl⟩ ⟨rfl, rfl⟩⟩
  | deliver idle supported =>
    exact ⟨_, .deliver ((handlers _).trans idle) supported, mirrored.setHandler _ _⟩
  | poison idle unsupported =>
    exact ⟨_, .poison ((handlers _).trans idle) unsupported, mirrored.setHandler _ _⟩
  | attempt received begun =>
    exact ⟨_, .attempt ((handlers _).trans received) (db ▸ begun), (mirrored.begun _).setHandler _ _⟩
  | retry attempting ended left =>
    exact ⟨_, .retry ((handlers _).trans attempting) (db ▸ ended) left, mirrored.setHandler _ _⟩
  | ack attempting done =>
    exact ⟨_, .ack ((handlers _).trans attempting) (db ▸ done), mirrored.setHandler _ _⟩
  | reject attempting ended =>
    exact ⟨_, .reject ((handlers _).trans attempting) (db ▸ ended), mirrored.setHandler _ _⟩
  | placeLookup idle => exact ⟨_, .placeLookup ((placing _).trans idle), mirrored.setPlacing _ _⟩
  | placeBegin checked begun =>
    exact ⟨_, .placeBegin ((placing _).trans checked) (db ▸ begun), (mirrored.begun _).setPlacing _ _⟩

/-- The next process begins where the last one has stopped. -/
theorem mirrored_crash {epoch : Nat} {s m : Service} (mirrored : Mirrored epoch s m) (orderly : Orderly m) :
    ∃ events m', run serve m events = some m' ∧ (∀ event ∈ events, event.Blind) ∧
      Mirrored (epoch + 1) s.crash m' := by
  obtain ⟨events, m', reached, blind, idle, db, handlers, placing⟩ := crash_serves orderly
  refine ⟨events, m', reached, blind, ?_, idle, ?_, ?_, ?_, ?_⟩
  · rw [db]
    exact congrArg Database.sever mirrored.db
  · intro h
    rw [handlers]
    exact mirrored.laterHandlers _ (Nat.lt_succ_self epoch) h
  · intro p
    rw [placing]
    exact mirrored.laterPlacing _ (Nat.lt_succ_self epoch) p
  · intro later after h
    rw [handlers]
    exact mirrored.laterHandlers later (Nat.lt_of_succ_lt after) h
  · intro later after p
    rw [placing]
    exact mirrored.laterPlacing later (Nat.lt_of_succ_lt after) p

/-! ### The bus and the channel -/

structure Mirrors (s : Bus) (m : System) : Prop where
  delivering : Delivering s
  provider : m.provider = s.provider
  channel : m.channel = s.sent.map LineProvider.Publication.message
  orderly : Orderly m.service
  service : ∃ epoch, Mirrored epoch s.service m.service

theorem init_mirrors : Mirrors Bus.init System.init :=
  ⟨init_delivering, rfl, rfl, start_orderly ∅, 0, start_mirrored ∅⟩

theorem Mirrors.observes {s : Bus} {m : System} {epoch : Nat} (h : Mirrors s m)
    (mirrored : Mirrored epoch s.service m.service) (event : Event) :
    m.observes (event.within epoch) = s.system.observes event := by
  cases event with
  | transaction action => rfl
  | tick event =>
    cases event with
    | lookup lookup => simp only [Event.within, System.observes, Bus.system, mirrored.tick, h.provider]
    | _ => rfl
  | handler k event =>
    cases event with
    | deliver message => simp only [Event.within, System.observes, Bus.system, h.channel]
    | _ => rfl
  | place p event =>
    cases event with
    | lookup => simp only [Event.within, System.observes, Bus.system, h.provider]
    | _ => rfl

theorem system_service {m : System} {event : Event} {service : Service} (observed : m.observes event = true)
    (served : serve m.service event = some service) : m.step (.service event) = some { m with service } := by
  simp only [System.step, if_pos observed, served, Option.map_some]

/-- A step of bet-maker on the bus is the same step on the channel. -/
theorem Mirrors.serve {s : Bus} {m : System} {event : Event} {service : Service} (h : Mirrors s m)
    (observed : s.system.observes event = true) (served : BetMaker.serve s.service event = some service) :
    ∃ epoch m', m.step (.service (event.within epoch)) = some { m with service := m' } ∧ Orderly m' ∧
      Mirrored epoch service m' := by
  obtain ⟨epoch, mirrored⟩ := h.service
  obtain ⟨m', serves, after⟩ := mirrored_serves mirrored (serve_serves served)
  have next := serves_serve serves
  exact ⟨epoch, m', system_service ((h.observes mirrored event).trans observed) next, orderly_step h.orderly next,
    after⟩

theorem blind_observed {m : System} {event : Event} {service : Service} (blind : event.Blind)
    (served : BetMaker.serve m.service event = some service) : m.observes event = true := by
  cases serve_serves served with
  | @tickPass eventId todo lookup ready nothing =>
    cases lookup with
    | unavailable => simp [System.observes, ready]
    | answered snapshot => exact blind.elim
  | tickDecide | deliver | poison | placeLookup => exact blind.elim
  | _ => rfl

theorem run_blind {m : System} {events : List Event} {service : Service}
    (reached : run BetMaker.serve m.service events = some service) (blind : ∀ event ∈ events, event.Blind) :
    run System.step m (events.map .service) = some { m with service } := by
  induction events generalizing m with
  | nil =>
    obtain rfl := run_nil.mp reached
    rfl
  | cons event rest ih =>
    obtain ⟨middle, first, last⟩ := run_cons.mp reached
    have next := system_service (blind_observed (blind event List.mem_cons_self) first) first
    exact run_cons.mpr ⟨_, next, ih (m := { m with service := middle }) last
      fun other later => blind other (List.mem_cons_of_mem _ later)⟩

theorem mirrors_step {s s' : Bus} {traffic : Traffic} {m : System} (h : Mirrors s m)
    (next : s.step traffic = some s') : ∃ occurrences m', run System.step m occurrences = some m' ∧ Mirrors s' m' ∧
      (traffic ≠ .restart → ∀ occurrence ∈ occurrences, occurrence ≠ .restart) := by
  have delivering := delivering_step h.delivering next
  have single : ∀ occurrence m', m.step occurrence = some m' → Mirrors s' m' →
      (traffic ≠ .restart → occurrence ≠ .restart) → ∃ occurrences m', run System.step m occurrences = some m' ∧
        Mirrors s' m' ∧ (traffic ≠ .restart → ∀ occurrence ∈ occurrences, occurrence ≠ .restart) := by
    intro occurrence m' taken mirrors other
    refine ⟨[occurrence], m', run_cons.mpr ⟨_, taken, run_nil.mpr rfl⟩, mirrors, fun up o member => ?_⟩
    rw [List.mem_singleton.mp member]
    exact other up
  have stutter : Mirrors s' m → ∃ occurrences m', run System.step m occurrences = some m' ∧
      Mirrors s' m' ∧ (traffic ≠ .restart → ∀ occurrence ∈ occurrences, occurrence ≠ .restart) :=
    fun mirrors => ⟨[], m, run_nil.mpr rfl, mirrors, fun _ o member => (List.not_mem_nil member).elim⟩
  cases step_carried next with
  | @provider action provider confirmed moved =>
    have taken : m.step (.provider action) =
        some { m with provider, channel := m.channel ++ sent m.provider provider } := by
      simp only [System.step, h.provider, moved, Option.map_some]
    refine single _ _ taken ⟨delivering, rfl, ?_, h.orderly, h.service⟩ fun _ => by simp
    simp only [h.channel, h.provider, List.map_append, sent_newPublications]
  | restart =>
    exact single .restart _ rfl ⟨delivering, rfl, h.channel, h.orderly, h.service⟩ fun up => absurd rfl up
  | @deliver handler publication broker service delivered served =>
    obtain ⟨rest, front, -, rfl⟩ := Broker.deliver_ok delivered
    have listed : publication ∈ s.sent := by
      refine h.delivering.accounted.sent.mem_iff.mpr (List.mem_append_right _ ?_)
      simp [Broker.received, front]
    have observed : s.system.observes (.handler handler (.deliver publication.message)) = true := by
      simpa [System.observes, Bus.system] using ⟨publication, listed, rfl⟩
    obtain ⟨epoch, m', taken, orderly, mirrored⟩ := h.serve observed served
    exact single _ _ taken ⟨delivering, h.provider, h.channel, orderly, epoch, mirrored⟩ fun _ => by simp
  | @service event service own observed served =>
    obtain ⟨epoch, m', taken, orderly, mirrored⟩ := h.serve observed served
    exact single _ _ taken ⟨delivering, h.provider, h.channel, orderly, epoch, mirrored⟩ fun _ => by simp
  | crash =>
    obtain ⟨epoch, mirrored⟩ := h.service
    obtain ⟨events, m', reached, blind, after⟩ := mirrored_crash mirrored h.orderly
    have orderly := run_invariant (fun _ _ _ => orderly_step) h.orderly reached
    refine ⟨events.map .service, { m with service := m' }, run_blind reached blind,
      ⟨delivering, h.provider, h.channel, orderly, epoch + 1, after⟩, fun _ occurrence member => ?_⟩
    obtain ⟨event, -, rfl⟩ := List.mem_map.mp member
    simp
  | arrive | lose | declare | acknowledge | deadLetter | reconnect =>
    exact stutter ⟨delivering, h.provider, h.channel, h.orderly, h.service⟩

theorem run_mirrors {traffic : List Traffic} {s : Bus} (reached : run Bus.step Bus.init traffic = some s) :
    ∃ occurrences m, run System.step System.init occurrences = some m ∧ Mirrors s m ∧
      ((∀ t ∈ traffic, t ≠ .restart) → ∀ occurrence ∈ occurrences, occurrence ≠ .restart) := by
  have follow : ∀ s traffic s' m, Mirrors s m → Bus.step s traffic = some s' →
      ∃ occurrences m', run System.step m occurrences = some m' ∧ Mirrors s' m' ∧
        (traffic ≠ .restart → ∀ occurrence ∈ occurrences, occurrence ≠ .restart) :=
    fun _ _ _ _ => mirrors_step
  exact run_simulates follow init_mirrors reached

/-- However the connections fail and the processes end, what the services have come to is what they could have
come to on the lossy channel, with one process of bet-maker: database, tick, handlers and requests. -/
theorem bus_refines {traffic : List Traffic} {s : Bus} (reached : run Bus.step Bus.init traffic = some s) :
    ∃ occurrences m epoch, run System.step System.init occurrences = some m ∧ m.provider = s.provider ∧
      m.channel = s.sent.map LineProvider.Publication.message ∧ Mirrored epoch s.service m.service ∧
      ((∀ t ∈ traffic, t ≠ .restart) → ∀ occurrence ∈ occurrences, occurrence ≠ .restart) := by
  obtain ⟨occurrences, m, moved, mirrors, runs⟩ := run_mirrors reached
  obtain ⟨epoch, mirrored⟩ := mirrors.service
  exact ⟨occurrences, m, epoch, moved, mirrors.provider, mirrors.channel, mirrored, runs⟩

theorem bus_agreed {traffic : List Traffic} {s : Bus} (up : ∀ t ∈ traffic, t ≠ .restart)
    (reached : run Bus.step Bus.init traffic = some s) : ∃ m, Mirrors s m ∧ Agreed m := by
  obtain ⟨occurrences, m, moved, mirrors, runs⟩ := run_mirrors reached
  have agreed := run_invariant_of (P := fun s => s.Sane ∧ Agreed s) (fun _ _ _ => agreed_step) (runs up)
    ⟨init_sane, init_agreed⟩ moved
  exact ⟨m, mirrors, agreed.2⟩

/-- What the reconciler makes of an answer about an event that has ended. -/
theorem final_reconciled {provider : LineProvider.State} {eventId : UUID} {terminal : EventTerminalState}
    (final : Final provider eventId terminal) {snapshot : Option EventSnapshot}
    (answer : getEvent provider eventId = .answered snapshot) :
    reconcileEvent eventId snapshot = some (.settleBetsForEvent eventId terminal .reconciler) := by
  obtain ⟨event, found, stored, rfl, state⟩ := getEvent_known final.known answer
  obtain ⟨event', stored', ended⟩ := final
  obtain rfl : event = event' := Option.some.inj (stored.symm.trans stored')
  rw [ended] at state
  cases terminal <;> simp [reconcileEvent, state, EventTerminalState.toEventState]

/-- While line-provider runs, a message that never settles its bets, because it was lost, turned away or dead-lettered,
loses nothing but time: an answer about its event makes the reconciler do what the message asked for, and a bet on the
event that is settled already has the outcome of the message. -/
theorem lost_messages_reconciled {traffic : List Traffic} {s : Bus} (up : ∀ t ∈ traffic, t ≠ .restart)
    (reached : run Bus.step Bus.init traffic = some s) {p : LineProvider.Publication} (sent : p ∈ s.sent) :
    (∀ snapshot, getEvent s.provider p.message.eventId = .answered snapshot →
      reconcileEvent p.message.eventId snapshot =
        some (.settleBetsForEvent p.message.eventId p.message.newState .reconciler)) ∧
    ∀ id bet, s.service.db.table.rows.lookup id = some bet → bet.eventId = p.message.eventId →
      bet.status = .pending ∨ bet.status = terminalToStatus p.message.newState := by
  obtain ⟨m, mirrors, agreed⟩ := bus_agreed up reached
  obtain ⟨epoch, mirrored⟩ := mirrors.service
  have listed : p.message ∈ m.channel := by
    rw [mirrors.channel]
    exact List.mem_map_of_mem sent
  have final : Final m.provider p.message.eventId p.message.newState := agreed.channel p.message listed
  refine ⟨fun snapshot answer => final_reconciled final (mirrors.provider ▸ answer), fun id bet row event => ?_⟩
  rw [← mirrored.db] at row
  rcases (agreed.rows id bet row).2 with pending | ⟨terminal, status, ended⟩
  · exact Or.inl pending
  · exact Or.inr (status.trans (congrArg terminalToStatus (ended.unique (event ▸ final))))

end

/-- The process ends with a delivery in its hands, and the next one settles it. -/
def crashed : List Traffic :=
  [.declare] ++ publishSeven ++ [.deliver 0, .service (.handler 0 (.attempt 0 30 31)),
   .service (.transaction (.select 0)), .crash, .deliver 0, .service (.handler 0 (.attempt 1 40 41)),
   .service (.transaction (.select 1)), .service (.transaction (.fetch 1 42)), .service (.transaction (.commit 1)),
   .service (.handler 0 .ack), .acknowledge 0]

theorem bus_refines_crashed : ∃ s occurrences m, run Bus.step Bus.init crashed = some s ∧
    run System.step System.init occurrences = some m ∧ m.service.db = s.service.db ∧
    ∀ occurrence ∈ occurrences, occurrence ≠ .restart := by
  obtain ⟨s, reached⟩ := Option.isSome_iff_exists.mp
    (show (run Bus.step Bus.init crashed).isSome = true by decide)
  obtain ⟨occurrences, m, epoch, moved, -, -, mirrored, runs⟩ := bus_refines reached
  have up : ∀ t ∈ crashed, t ≠ .restart := by simp [crashed, publishSeven]
  exact ⟨s, occurrences, m, reached, moved, mirrored.db, runs up⟩

/-- The delivery is rejected after one attempt that rolled back. -/
def deadLettered : List Traffic :=
  [.declare] ++ publishSeven ++ [.deliver 0, .service (.handler 0 (.attempt 0 30 31)),
   .service (.transaction (.abort 0)), .service (.handler 0 .reject), .deadLetter 0]

theorem lost_messages_reconciled_deadLettered : ∃ s, run Bus.step Bus.init deadLettered = some s ∧
    s.broker.ready .dlq = [sevenPublished] ∧ ∀ snapshot, getEvent s.provider 7 = .answered snapshot →
      reconcileEvent 7 snapshot = some (.settleBetsForEvent 7 .finishedWin .reconciler) := by
  obtain ⟨s, reached⟩ := Option.isSome_iff_exists.mp
    (show (run Bus.step Bus.init deadLettered).isSome = true by decide)
  have lists : (run Bus.step Bus.init deadLettered).map (fun s => (s.broker.ready .dlq, s.sent)) =
      some ([sevenPublished], [sevenPublished]) := by decide
  rw [reached] at lists
  obtain ⟨dead, sent⟩ : s.broker.ready .dlq = [sevenPublished] ∧ s.sent = [sevenPublished] :=
    Prod.mk.inj (Option.some.inj lists)
  have up : ∀ t ∈ deadLettered, t ≠ .restart := by simp [deadLettered, publishSeven]
  exact ⟨s, reached, dead, (lost_messages_reconciled up reached (sent ▸ List.mem_singleton_self sevenPublished)).1⟩

end BetSettlement
