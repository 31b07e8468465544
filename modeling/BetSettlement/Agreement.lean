import BetSettlement.System

/-!
# One outcome for every bet

Terminal states are absorbing and line-provider forgets no event, so whatever bet-maker has read or
received about an event still agrees with the store when it is acted upon.
-/

namespace BetSettlement
open Python Machine BetMaker

section
variable [Pydantic]

def Known (provider : LineProvider.State) (eventId : UUID) : Prop :=
  ∃ event, provider.data.lookup eventId = some event

def Final (provider : LineProvider.State) (eventId : UUID) (terminal : EventTerminalState) : Prop :=
  ∃ event, provider.data.lookup eventId = some event ∧ event.state = terminal.toEventState

theorem known_step {s s' : LineProvider.State} {action : LineProvider.Action} {eventId : UUID}
    (inv : LineProvider.Inv s) (next : LineProvider.step s action = some s') (h : Known s eventId) :
    Known s' eventId := by
  obtain ⟨event, found⟩ := h
  obtain ⟨event', found', -⟩ := LineProvider.stored_step inv next found
  exact ⟨event', found'⟩

theorem final_step {s s' : LineProvider.State} {action : LineProvider.Action} {eventId : UUID}
    {terminal : EventTerminalState} (inv : LineProvider.Inv s) (next : LineProvider.step s action = some s')
    (h : Final s eventId terminal) : Final s' eventId terminal := by
  obtain ⟨event, found, state⟩ := h
  obtain ⟨event', found', allowed⟩ := LineProvider.stored_step inv next found
  rcases LineProvider.transition_allowed allowed with same | new
  · exact ⟨event', found', same.symm.trans state⟩
  · exact absurd (state.symm.trans new) terminal.toEventState_ne_new

theorem Final.known {s : LineProvider.State} {eventId : UUID} {terminal : EventTerminalState}
    (h : Final s eventId terminal) : Known s eventId := by
  obtain ⟨event, found, -⟩ := h
  exact ⟨event, found⟩

theorem Final.unique {s : LineProvider.State} {eventId : UUID} {terminal other : EventTerminalState}
    (h : Final s eventId terminal) (h' : Final s eventId other) : terminal = other := by
  obtain ⟨event, found, state⟩ := h
  obtain ⟨event', found', state'⟩ := h'
  obtain rfl := Option.some.inj (found.symm.trans found')
  exact EventTerminalState.toEventState_injective (state.symm.trans state')

/-- A call that the store bears out. -/
def Justified (provider : LineProvider.State) : Call → Prop
  | .settleBetsForEvent eventId terminal _ => Final provider eventId terminal
  | .cancelBetsForEvent _ => False
  | .placeBet eventId _ => Known provider eventId

theorem justified_step {s s' : LineProvider.State} {action : LineProvider.Action} {call : Call}
    (inv : LineProvider.Inv s) (next : LineProvider.step s action = some s') (h : Justified s call) :
    Justified s' call := by
  cases call with
  | settleBetsForEvent eventId terminal via => exact final_step inv next h
  | cancelBetsForEvent eventId => exact h
  | placeBet eventId amount => exact known_step inv next h

/-- A bet is on an event of the store, and settled as that event ended if at all. -/
def Right (provider : LineProvider.State) (bet : Bet) : Prop :=
  Known provider bet.eventId ∧ (bet.status = .pending ∨
    ∃ terminal, bet.status = terminalToStatus terminal ∧ Final provider bet.eventId terminal)

theorem right_step {s s' : LineProvider.State} {action : LineProvider.Action} {bet : Bet}
    (inv : LineProvider.Inv s) (next : LineProvider.step s action = some s') (h : Right s bet) : Right s' bet := by
  refine ⟨known_step inv next h.1, ?_⟩
  rcases h.2 with pending | ⟨terminal, status, final⟩
  · exact Or.inl pending
  · exact Or.inr ⟨terminal, status, final_step inv next final⟩

/-- What bet-maker's tasks remember of line-provider. -/
structure Informed (provider : LineProvider.State) (service : Service) : Prop where
  received : ∀ h message attempts, service.handlers h = .received message attempts →
    Final provider message.eventId message.newState
  attempting : ∀ h message attempts t, service.handlers h = .attempting message attempts t →
    Final provider message.eventId message.newState
  remaining : ∀ eventId ∈ service.tick.remaining, Known provider eventId
  decided : ∀ eventId snapshot call todo, service.tick = .decided eventId snapshot call todo →
    Justified provider call
  checked : ∀ p eventId amount, service.placing p = .checked eventId amount → Known provider eventId

structure Agreed (s : System) : Prop where
  channel : ∀ message ∈ s.channel, Final s.provider message.eventId message.newState
  informed : Informed s.provider s.service
  calls : ∀ t tx, (s.service.db.slots t).tx = some tx → Justified s.provider tx.call
  rows : ∀ id bet, s.service.db.table.rows.lookup id = some bet → Right s.provider bet

theorem init_agreed : Agreed System.init where
  channel message member := by cases member
  informed := {
    received := fun h message attempts here => by cases here
    attempting := fun h message attempts t here => by cases here
    remaining := fun eventId member => by cases member
    decided := fun eventId snapshot call todo here => by cases here
    checked := fun p eventId amount here => by cases here }
  calls t tx found := by cases found
  rows id bet found := by cases found

theorem sent_final {s s' : LineProvider.State} (inv : LineProvider.Inv s') {message : EventFinishedMessage}
    (member : message ∈ sent s s') : Final s' message.eventId message.newState := by
  obtain ⟨p, published, rfl⟩ := List.mem_map.mp member
  obtain ⟨event, found, state, -⟩ := inv.recorded p (List.mem_of_mem_drop published)
  exact ⟨event, found, state⟩

theorem provider_agreed {s : System} {action : LineProvider.Action} {provider : LineProvider.State}
    (inv : LineProvider.Inv s.provider) (h : Agreed s) (next : LineProvider.step s.provider action = some provider) :
    Agreed { s with provider, channel := s.channel ++ sent s.provider provider } where
  channel message member := by
    rcases List.mem_append.mp member with before | now
    · exact final_step inv next (h.channel message before)
    · exact sent_final (LineProvider.step_inv inv next) now
  informed := {
    received := fun handler message attempts here =>
      final_step inv next (h.informed.received handler message attempts here)
    attempting := fun handler message attempts t here =>
      final_step inv next (h.informed.attempting handler message attempts t here)
    remaining := fun eventId member => known_step inv next (h.informed.remaining eventId member)
    decided := fun eventId snapshot call todo here =>
      justified_step inv next (h.informed.decided eventId snapshot call todo here)
    checked := fun p eventId amount here => known_step inv next (h.informed.checked p eventId amount here) }
  calls t tx found := justified_step inv next (h.calls t tx found)
  rows id bet found := right_step inv next (h.rows id bet found)

/-- The answer of a lookup on an event that the store holds. -/
theorem getEvent_known {provider : LineProvider.State} {eventId : UUID} (known : Known provider eventId)
    {snapshot : Option EventSnapshot} (h : getEvent provider eventId = .answered snapshot) :
    ∃ event found, provider.data.lookup eventId = some event ∧ snapshot = some found ∧ found.state = event.state := by
  obtain ⟨event, found⟩ := known
  unfold getEvent at h
  rw [found] at h
  simp only at h
  split at h
  · cases h
  · rename_i read valid
    obtain rfl := Lookup.answered.inj h
    obtain ⟨price, -, same⟩ := Option.map_eq_some_iff.mp valid
    exact ⟨event, _, found, rfl, by rw [← same]⟩

theorem reconcile_justified {provider : LineProvider.State} {eventId : UUID} (known : Known provider eventId)
    {snapshot : Option EventSnapshot} {call : Call} (h : getEvent provider eventId = .answered snapshot)
    (calls : reconcileEvent eventId snapshot = some call) : Justified provider call := by
  obtain ⟨event, found, stored, rfl, state⟩ := getEvent_known known h
  simp only [reconcileEvent] at calls
  split at calls
  · rename_i win
    obtain rfl := Option.some.inj calls
    exact ⟨event, stored, state.symm.trans win⟩
  · rename_i lose
    obtain rfl := Option.some.inj calls
    exact ⟨event, stored, state.symm.trans lose⟩
  · cases calls

/-- The transactions and the rows after one database step. -/
theorem database_agreed {provider : LineProvider.State} {db db' : Database} {action : Action}
    (inv : BetMaker.Inv db) (next : BetMaker.step db action = some db')
    (calls : ∀ t tx, (db.slots t).tx = some tx → Justified provider tx.call)
    (rows : ∀ id bet, db.table.rows.lookup id = some bet → Right provider bet)
    (begun : ∀ t call clock now, action = .begin t call clock now → Justified provider call) :
    (∀ t tx, (db'.slots t).tx = some tx → Justified provider tx.call) ∧
      ∀ id bet, db'.table.rows.lookup id = some bet → Right provider bet := by
  constructor
  · intro t tx found
    rcases call_step next found with ⟨tx₀, found₀, same⟩ | ⟨clock, now, begins⟩
    · rw [same]
      exact calls t tx₀ found₀
    · exact begun t tx.call clock now begins
  · intro id bet found
    cases row_step inv next id with
    | kept same => exact rows id bet (same.symm.trans found)
    | @settled t tx settlement bet₀ commits here settles member before event pending row =>
      obtain rfl := Option.some.inj (row.symm.trans found)
      have justified := calls t tx (congrArg Slot.tx here)
      refine ⟨(rows id bet₀ before).1, Or.inr ?_⟩
      cases call : tx.call with
      | settleBetsForEvent eventId terminal via =>
        rw [call] at settles justified
        obtain rfl := Option.some.inj settles
        refine ⟨terminal, rfl, ?_⟩
        change Final provider bet₀.eventId terminal
        rw [event]
        exact justified
      | cancelBetsForEvent eventId =>
        rw [call] at justified
        exact justified.elim
      | placeBet eventId amount =>
        rw [call] at settles
        cases settles
    | @placed t tx amount bet₀ commits here phase call create absent row =>
      obtain rfl := Option.some.inj (row.symm.trans found)
      have justified := calls t tx (congrArg Slot.tx here)
      rw [call] at justified
      exact ⟨justified, Or.inl (Bet.create_ok create).2.2.1⟩

theorem informed_db {provider : LineProvider.State} {service : Service} (informed : Informed provider service)
    (db : Database) : Informed provider { service with db } :=
  ⟨informed.received, informed.attempting, informed.remaining, informed.decided, informed.checked⟩

theorem informed_setHandler {provider : LineProvider.State} {service : Service} {h : Nat} {handler : Handler}
    (informed : Informed provider service)
    (received : ∀ message attempts, handler = .received message attempts →
      Final provider message.eventId message.newState)
    (attempting : ∀ message attempts t, handler = .attempting message attempts t →
      Final provider message.eventId message.newState) : Informed provider (service.setHandler h handler) where
  received other message attempts here := by
    by_cases same : other = h
    · subst same
      exact received message attempts (by simpa [Service.setHandler] using here)
    · exact informed.received other message attempts (by simpa [Service.setHandler, same] using here)
  attempting other message attempts t here := by
    by_cases same : other = h
    · subst same
      exact attempting message attempts t (by simpa [Service.setHandler] using here)
    · exact informed.attempting other message attempts t (by simpa [Service.setHandler, same] using here)
  remaining := informed.remaining
  decided := informed.decided
  checked := informed.checked

theorem informed_setPlacing {provider : LineProvider.State} {service : Service} {p : Nat} {placing : Placing}
    (informed : Informed provider service)
    (checked : ∀ eventId amount, placing = .checked eventId amount → Known provider eventId) :
    Informed provider (service.setPlacing p placing) where
  received := informed.received
  attempting := informed.attempting
  remaining := informed.remaining
  decided := informed.decided
  checked other eventId amount here := by
    by_cases same : other = p
    · subst same
      exact checked eventId amount (by simpa [Service.setPlacing] using here)
    · exact informed.checked other eventId amount (by simpa [Service.setPlacing, same] using here)

theorem informed_tick {provider : LineProvider.State} {service service' : Service}
    (informed : Informed provider service) (handlers : service'.handlers = service.handlers)
    (placing : service'.placing = service.placing)
    (remaining : ∀ eventId ∈ service'.tick.remaining, Known provider eventId)
    (decided : ∀ eventId snapshot call todo, service'.tick = .decided eventId snapshot call todo →
      Justified provider call) : Informed provider service' where
  received := handlers ▸ informed.received
  attempting := handlers ▸ informed.attempting
  remaining := remaining
  decided := decided
  checked := placing ▸ informed.checked

theorem read_known {s : System} {eventIds : List UUID} (h : Agreed s)
    (found : eventIds.Perm (getPendingEventIds s.service.db)) :
    ∀ eventId ∈ eventIds, Known s.provider eventId := by
  intro eventId member
  obtain ⟨id, bet, row, rfl, -⟩ := of_mem_getPendingEventIds (found.mem_iff.mp member)
  exact (h.rows id bet row).1

theorem service_informed {s : System} {event : Event} {service : Service} (h : Agreed s)
    (observed : s.observes event = true) (served : serve s.service event = some service) :
    Informed s.provider service := by
  have informed := h.informed
  cases serve_serves served with
  | transaction moved other => exact informed_db informed _
  | tickRead idle found => exact informed_tick informed rfl rfl (read_known h found) (by simp)
  | tickPass ready nothing =>
    refine informed_tick informed rfl rfl (fun eventId member => ?_) (by simp)
    exact informed.remaining eventId (by rw [ready]; exact List.mem_cons_of_mem _ member)
  | @tickDecide eventId todo snapshot call ready calls =>
    have known : Known s.provider eventId := informed.remaining eventId (by rw [ready]; exact List.mem_cons_self)
    have answer : .answered snapshot = getEvent s.provider eventId := by
      simpa [System.observes, ready] using observed
    refine informed_tick informed rfl rfl (fun other member => ?_) ?_
    · exact informed.remaining other (by rw [ready]; exact member)
    · intro _ _ _ _ same
      cases same
      exact reconcile_justified known answer.symm calls
  | tickBegin decided begun | tickFails decided =>
    refine informed_tick informed rfl rfl (fun other member => ?_) (by simp)
    exact informed.remaining other (by rw [decided]; exact List.mem_cons_of_mem _ member)
  | tickNext running ended =>
    refine informed_tick informed rfl rfl (fun other member => ?_) (by simp)
    exact informed.remaining other (by rw [running]; exact member)
  | tickStop done => exact informed_tick informed rfl rfl (by simp [Tick.remaining]) (by simp)
  | deliver idle supported =>
    apply informed_setHandler informed
    · intro message attempts same
      obtain ⟨rfl, -⟩ := Handler.received.inj same
      exact h.channel _ (by simpa [System.observes] using observed)
    · simp
  | poison idle unsupported => exact informed_setHandler informed (by simp) (by simp)
  | attempt received begun =>
    apply informed_setHandler (informed_db informed _)
    · simp
    · intro message attempts t same
      obtain ⟨rfl, -, -⟩ := Handler.attempting.inj same
      exact informed.received _ _ _ received
  | retry attempting ended left =>
    apply informed_setHandler informed
    · intro message attempts same
      obtain ⟨rfl, -⟩ := Handler.received.inj same
      exact informed.attempting _ _ _ _ attempting
    · simp
  | ack attempting _ | reject attempting _ => exact informed_setHandler informed (by simp) (by simp)
  | placeLookup idle =>
    apply informed_setPlacing informed
    intro eventId amount same
    obtain ⟨rfl, -, event, found, -⟩ := checked_open (by simpa [System.observes] using observed) same
    exact ⟨event, found⟩
  | placeBegin checked begun =>
    exact informed_setPlacing (informed_db informed _) (by simp)

theorem service_agreed {s : System} {event : Event} {service : Service} (sane : s.Sane) (h : Agreed s)
    (observed : s.observes event = true) (served : serve s.service event = some service) :
    Agreed { s with service } := by
  have informed := service_informed h observed served
  suffices agreed : (∀ t tx, (service.db.slots t).tx = some tx → Justified s.provider tx.call) ∧
      ∀ id bet, service.db.table.rows.lookup id = some bet → Right s.provider bet from
    ⟨h.channel, informed, agreed.1, agreed.2⟩
  cases serve_serves served with
  | transaction moved other =>
    exact database_agreed sane.bets moved h.calls h.rows fun t call clock now same =>
      absurd same (other t call clock now)
  | tickBegin decided begun =>
    refine database_agreed sane.bets begun h.calls h.rows fun t call clock now same => ?_
    obtain ⟨-, rfl, -⟩ := Action.begin.inj same
    exact h.informed.decided _ _ _ _ decided
  | attempt received begun =>
    refine database_agreed sane.bets begun h.calls h.rows fun t call clock now same => ?_
    obtain ⟨-, rfl, -⟩ := Action.begin.inj same
    exact h.informed.received _ _ _ received
  | placeBegin checked begun =>
    refine database_agreed sane.bets begun h.calls h.rows fun t call clock now same => ?_
    obtain ⟨-, rfl, -⟩ := Action.begin.inj same
    exact h.informed.checked _ _ _ checked
  | _ => exact ⟨h.calls, h.rows⟩

theorem agreed_step {s s' : System} {occurrence : Occurrence} (runs : occurrence ≠ .restart)
    (h : s.Sane ∧ Agreed s) (next : s.step occurrence = some s') : s'.Sane ∧ Agreed s' := by
  refine ⟨sane_step h.1 next, ?_⟩
  cases step_happens next with
  | provider moved => exact provider_agreed h.1.provider h.2 moved
  | restart => exact absurd rfl runs
  | lose => exact ⟨fun message member => h.2.channel message (List.mem_of_mem_erase member), h.2.informed,
      h.2.calls, h.2.rows⟩
  | service observed served => exact service_agreed h.1 h.2 observed served

/-- While line-provider runs, a settled bet carries the outcome that its event has in the store, no bet is
cancelled, and so the settled bets of one event agree. -/
theorem outcomes_agree {s : System} {occurrences : List Occurrence}
    (up : ∀ occurrence ∈ occurrences, occurrence ≠ .restart)
    (reached : run System.step System.init occurrences = some s) :
    (∀ id bet, s.service.db.table.rows.lookup id = some bet → bet.status ≠ .cancelled ∧
      ∀ terminal, bet.status = terminalToStatus terminal → Final s.provider bet.eventId terminal) ∧
    ∀ id bet id' bet', s.service.db.table.rows.lookup id = some bet →
      s.service.db.table.rows.lookup id' = some bet' → bet.eventId = bet'.eventId →
      bet.status ≠ .pending → bet'.status ≠ .pending → bet.status = bet'.status := by
  have agreed : Agreed s := (run_invariant_of (P := fun s => s.Sane ∧ Agreed s)
    (fun _ _ _ => agreed_step) up ⟨init_sane, init_agreed⟩ reached).2
  have outcome : ∀ id bet, s.service.db.table.rows.lookup id = some bet → bet.status ≠ .pending →
      ∃ terminal, bet.status = terminalToStatus terminal ∧ Final s.provider bet.eventId terminal := by
    intro id bet row decided
    rcases (agreed.rows id bet row).2 with pending | settled
    · exact absurd pending decided
    · exact settled
  constructor
  · intro id bet row
    constructor
    · intro cancelled
      obtain ⟨terminal, status, -⟩ := outcome id bet row (by simp [cancelled])
      cases terminal <;> simp [cancelled, terminalToStatus] at status
    · intro terminal status
      obtain ⟨terminal', status', final⟩ := outcome id bet row (status ▸ terminalToStatus_ne_pending terminal)
      exact terminalToStatus_injective (status.symm.trans status') ▸ final
  · intro id bet id' bet' row row' same decided decided'
    obtain ⟨terminal, status, final⟩ := outcome id bet row decided
    obtain ⟨terminal', status', final'⟩ := outcome id' bet' row' decided'
    rw [status, status', final.unique (same ▸ final')]

end

/-- Event 7 is created. -/
def createSeven : List Occurrence :=
  [.provider (.spawn 0 (.createEvent ⟨7, ⟨false, 150, -2⟩, 90⟩)), .provider (.resume 0), .provider (.advance 10),
   .provider (.advance 10), .provider (.advance 10)]

/-- Event 7 is finished, and its message published. -/
def finishSeven : List Occurrence :=
  [.provider (.spawn 1 (.setEventState ⟨7, ⟨false, 175, -2⟩, 90, .finishedWin, "r"⟩)), .provider (.resume 1),
   .provider (.advance 20), .provider (.advance 20), .provider (.advance 20), .provider (.advance 20)]

def lookUpSeven (p : Nat) : Occurrence :=
  .service (.place p (.lookup 7 ⟨false, 10, 0⟩ (.answered (some ⟨7, .aware 90, .new⟩)) 15))

/-- The rest of `place_bet`, up to its commit. -/
def insertBet (p : Nat) (t : TxId) (id : UUID) : List Occurrence :=
  [.service (.place p (.begin t 0 16)), .service (.transaction (.insert t id))]

def sevenWon : EventFinishedMessage :=
  { schemaVersion := 1, eventId := 7, newState := .finishedWin, coefficient := ⟨false, 175, -2⟩, occurredAt := 20,
    correlationId := "r", versioned := schemaVersion_default, admitted := by decide }

def settleSeven (t : TxId) (id : UUID) : List Occurrence :=
  [.service (.handler 0 (.deliver sevenWon)), .service (.handler 0 (.attempt t 30 31)),
   .service (.transaction (.select t)), .service (.transaction (.visit t id)),
   .service (.transaction (.fetch t 32)), .service (.transaction (.update t)),
   .service (.transaction (.commit t)), .service (.handler 0 .ack)]

/-- The message of event 7 and the reconciler settle one of its two bets each, at the same time. -/
def settledByMessage : List Occurrence :=
  createSeven ++ [lookUpSeven 0, lookUpSeven 1] ++ insertBet 0 0 100 ++ insertBet 1 1 101 ++
    [.service (.transaction (.commit 1)), .service (.transaction (.commit 0))] ++ finishSeven ++
  [.service (.tick (.read [7])), .service (.tick (.lookup (.answered (some ⟨7, .aware 90, .finishedWin⟩)))),
   .service (.handler 0 (.deliver sevenWon)), .service (.handler 0 (.attempt 2 30 31)),
   .service (.tick (.begin 3 30 31)), .service (.transaction (.select 2)), .service (.transaction (.select 3)),
   .service (.transaction (.visit 2 100)), .service (.transaction (.visit 3 100)),
   .service (.transaction (.visit 3 101)), .service (.transaction (.visit 2 101)),
   .service (.transaction (.fetch 2 32)), .service (.transaction (.fetch 3 33)),
   .service (.transaction (.update 3)), .service (.transaction (.commit 3)),
   .service (.transaction (.update 2)), .service (.transaction (.commit 2)), .service (.handler 0 .ack)]

theorem outcomes_agree_settledByMessage : ∃ s bet bet', run System.step System.init settledByMessage = some s ∧
    s.service.db.table.rows.lookup 100 = some bet ∧ s.service.db.table.rows.lookup 101 = some bet' ∧
    bet.settledVia = some .consumer ∧ bet'.settledVia = some .reconciler ∧ bet.status = bet'.status ∧
    Final s.provider 7 .finishedWin := by
  obtain ⟨s, reached⟩ := Option.isSome_iff_exists.mp
    (show (run System.step System.init settledByMessage).isSome = true by decide)
  have facts : (run System.step System.init settledByMessage).map (fun s => [100, 101].map fun id =>
      (s.service.db.table.rows.lookup id).map fun bet => (bet.eventId, bet.status, bet.settledVia)) =
      some [some (7, .won, some .consumer), some (7, .won, some .reconciler)] := by decide
  rw [reached] at facts
  obtain ⟨first, rest⟩ := List.cons.inj (Option.some.inj facts)
  obtain ⟨bet, row, same⟩ := Option.map_eq_some_iff.mp first
  obtain ⟨bet', row', same'⟩ := Option.map_eq_some_iff.mp (List.cons.inj rest).1
  simp only [Prod.mk.injEq] at same same'
  obtain ⟨event, won, via⟩ := same
  obtain ⟨event', won', via'⟩ := same'
  have up : ∀ occurrence ∈ settledByMessage, occurrence ≠ .restart := by
    simp [settledByMessage, createSeven, finishSeven, lookUpSeven, insertBet]
  obtain ⟨outcome, agree⟩ := outcomes_agree up reached
  have equal : bet.status = bet'.status :=
    agree 100 bet 101 bet' row row' (event.trans event'.symm) (by simp [won]) (by simp [won'])
  exact ⟨s, bet, bet', reached, row, row', via, via', equal, event ▸ (outcome 100 bet row).2 .finishedWin won⟩

end BetSettlement
