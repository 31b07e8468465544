import BetSettlement.BetMaker.Serving
import BetSettlement.BetMaker.Race

/-!
# A tick leaves no bet behind

The tick reads its work-list once and then takes one event at a time, while other transactions open
and end around it.
-/

namespace BetSettlement.BetMaker
open Python Machine

/-- FINISHED_WIN, FINISHED_LOSE or 404. -/
def Lookup.Final : Lookup → Prop
  | .unavailable => False
  | .answered none => True
  | .answered (some snapshot) => snapshot.state ≠ .new

theorem Lookup.final_iff {lookup : Lookup} (eventId : UUID) :
    lookup.Final ↔ ∃ call, lookup.call eventId = some call := by
  cases lookup with
  | unavailable => simp [Final, Lookup.call]
  | answered snapshot =>
    cases snapshot with
    | none => simp [Final, Lookup.call, reconcileEvent]
    | some snapshot => cases state : snapshot.state <;> simp [Final, Lookup.call, reconcileEvent, state]

theorem Lookup.call_settles {lookup : Lookup} {eventId : UUID} {call : Call} (h : lookup.call eventId = some call) :
    ∃ settlement, call.settlement = some settlement ∧ settlement.eventId = eventId := by
  cases lookup with
  | unavailable => cases h
  | answered snapshot => exact reconcileEvent_settles h

/-- The lookup succeeded, and so did the transaction that it called for. -/
def Reconciled.Clean (db : Database) (entry : Reconciled) : Prop :=
  entry.lookup ≠ .unavailable ∧ (entry.lookup.Final → ∃ t tx, entry.tx = some t ∧ db.slots t = .committed tx)

section
variable [Pydantic]

structure Ticking (start : Database) (eventIds : List UUID) (s : Service) : Prop where
  later : start.Later s.db
  inv : Inv s.db
  busy : s.tick ≠ .idle
  order : s.log.map Reconciled.eventId ++ s.tick.remaining = eventIds
  decided : ∀ eventId snapshot call todo, s.tick = .decided eventId snapshot call todo →
    reconcileEvent eventId snapshot = some call
  opened : ∀ entry ∈ s.log, ∀ t, entry.tx = some t → start.slots t = .unused ∧
    ∃ tx, (s.db.slots t).tx = some tx ∧ entry.lookup.call entry.eventId = some tx.call

/-- Events of other tasks, and statements. -/
theorem ticking_elsewhere {start : Database} {eventIds : List UUID} {s s' : Service} (h : Ticking start eventIds s)
    (tick : s'.tick = s.tick) (log : s'.log = s.log)
    (moved : s'.db = s.db ∨ ∃ action, step s.db action = some s'.db) : Ticking start eventIds s' := by
  have grown : s.db.Later s'.db ∧ Inv s'.db := by
    rcases moved with same | ⟨action, next⟩
    · rw [same]
      exact ⟨.refl s.db, h.inv⟩
    · exact ⟨step_later h.inv next, step_inv h.inv next⟩
  refine ⟨h.later.trans grown.1, grown.2, tick ▸ h.busy, ?_, tick ▸ h.decided, ?_⟩
  · rw [tick, log]
    exact h.order
  · intro entry member t opened
    obtain ⟨fresh, tx, found, calls⟩ := h.opened entry (log ▸ member) t opened
    obtain ⟨tx', found', grows⟩ := (grown.1.slots t).tx found
    exact ⟨fresh, tx', found', grows.call ▸ calls⟩

/-- An iteration that opened no transaction. -/
theorem ticking_pass {start : Database} {eventIds todo : List UUID} {s : Service} {eventId : UUID}
    {lookup : Lookup} (h : Ticking start eventIds s) (next : s.tick.remaining = eventId :: todo) :
    Ticking start eventIds { s.record ⟨eventId, lookup, none⟩ with tick := .ready todo } where
  later := h.later
  inv := h.inv
  busy := by simp
  order := by
    have order := h.order
    rw [next] at order
    simpa [Service.record, Tick.remaining] using order
  decided _ _ _ _ other := by cases other
  opened entry member t opened := by
    rcases List.mem_append.mp member with before | now
    · exact h.opened entry before t opened
    · obtain rfl := List.mem_singleton.mp now
      cases opened

theorem ticking_begin {start : Database} {eventIds todo : List UUID} {s : Service} {eventId : UUID}
    {snapshot : Option EventSnapshot} {call : Call} {t : TxId} {clock now : Instant} {db : Database}
    (h : Ticking start eventIds s) (decided : s.tick = .decided eventId snapshot call todo)
    (begun : step s.db (.begin t call clock now) = some db) : Ticking start eventIds
      { { s with db }.record ⟨eventId, .answered snapshot, some t⟩ with tick := .running t todo } := by
  have next := step_later h.inv begun
  refine ⟨h.later.trans next, step_inv h.inv begun, by simp, ?_, (fun _ _ _ _ other => by cases other), ?_⟩
  · have order := h.order
    rw [decided] at order
    simpa [Service.record, Tick.remaining] using order
  · intro entry member u opened
    rcases List.mem_append.mp member with before | now
    · obtain ⟨fresh, tx, found, calls⟩ := h.opened entry before u opened
      obtain ⟨tx', found', grows⟩ := (next.slots u).tx found
      exact ⟨fresh, tx', found', grows.call ▸ calls⟩
    · obtain rfl := List.mem_singleton.mp now
      obtain rfl := Option.some.inj opened
      obtain ⟨unused, here⟩ := begin_slot begun
      refine ⟨?_, _, congrArg Slot.tx here, h.decided _ _ _ _ decided⟩
      have grown := h.later.slots t
      cases before : start.slots t with
      | unused => rfl
      | active tx =>
        rw [before, unused] at grown
        obtain ⟨tx', found, -⟩ := grown
        cases found
      | committed tx | aborted tx =>
        rw [before, unused] at grown
        cases grown

theorem ticking_step {start : Database} {eventIds : List UUID} {s s' : Service} {event : Event}
    (open_ : event ≠ .tick .stop) (h : Ticking start eventIds s) (next : serve s event = some s') :
    Ticking start eventIds s' := by
  have moved := serve_db next
  cases serve_serves next with
  | tickRead idle found => exact absurd idle h.busy
  | tickPass ready nothing => exact ticking_pass h (by rw [ready]; rfl)
  | tickFails decided => exact ticking_pass h (by rw [decided]; rfl)
  | tickDecide ready calls =>
    have order := h.order
    rw [ready] at order
    refine ⟨h.later, h.inv, by simp, order, ?_, h.opened⟩
    intro eventId snapshot call todo same
    cases same
    exact calls
  | tickBegin decided begun => exact ticking_begin h decided begun
  | tickNext running ended =>
    have order := h.order
    rw [running] at order
    exact ⟨h.later, h.inv, by simp, order, (fun _ _ _ _ other => by cases other), h.opened⟩
  | tickStop done => exact absurd rfl open_
  | _ => exact ticking_elsewhere h rfl rfl moved

theorem read_ticking {s s' : Service} {eventIds : List UUID} (inv : Inv s.db)
    (next : serve s (.tick (.read eventIds)) = some s') : s'.db = s.db ∧ Ticking s.db eventIds s' := by
  cases serve_serves next with
  | tickRead idle found =>
    exact ⟨rfl, .refl s.db, inv, by simp, rfl, (fun _ _ _ _ other => by cases other), (fun _ member => by cases member)⟩

/-- The row was locked at the SELECT of the entry's transaction, by a transaction that aborted. -/
def Reconciled.LockLost (db : Database) (id : UUID) (entry : Reconciled) : Prop :=
  ∃ t tx u ux, entry.tx = some t ∧ db.slots t = .committed tx ∧ (id, u) ∈ tx.skipped ∧ u ≠ t ∧
    db.slots u = .aborted ux

/-- What one clean iteration of a tick settles. -/
theorem entry_settles {start : Database} {eventIds : List UUID} {s : Service} {db : Database} {entry : Reconciled}
    {id : UUID} {bet : Bet} (ticking : Ticking start eventIds s) (since : Since start db) (accounts : Accounts db)
    (later : s.db.Later db) (member : entry ∈ s.log) (final : entry.lookup.Final) (clean : entry.Clean s.db)
    (row : start.table.rows.lookup id = some bet) (event : entry.eventId = bet.eventId) :
    db.Decided id ∨ ∃ t tx u ux, entry.tx = some t ∧ s.db.slots t = .committed tx ∧ (id, u) ∈ tx.skipped ∧
      u ≠ t ∧ start.Unended u ∧ (db.slots u = .active ux ∨ db.slots u = .aborted ux) := by
  obtain ⟨t, tx, opened, here⟩ := clean.2 final
  obtain ⟨fresh, tx', found, calls⟩ := ticking.opened entry member t opened
  obtain rfl : tx = tx' := Option.some.inj ((congrArg Slot.tx here).symm.trans found)
  obtain ⟨settlement, settles, target⟩ := Lookup.call_settles calls
  have here' := later.committed here
  rcases committed_settles since accounts (Or.inl fresh) here' settles row (event.symm.trans target.symm) with
    decided | ⟨u, ux, passed, other, -, unended, ended⟩
  · exact Or.inl decided
  · exact Or.inr ⟨t, tx, u, ux, opened, here, passed, other, unended, ended⟩

/-- Events that open no transaction other than the tick's. -/
def Event.Own : Event → Prop
  | .handler _ (.attempt ..) | .place _ (.begin ..) => False
  | _ => True

def LoggedBegins (start : Database) (s : Service) : Prop :=
  ∀ t, s.db.slots t ≠ .unused → start.slots t ≠ .unused ∨ ∃ entry ∈ s.log, entry.tx = some t

theorem loggedBegins_step {start : Database} {eventIds : List UUID} {s s' : Service} {event : Event}
    (own : event.Own) (open_ : event ≠ .tick .stop) (ticking : Ticking start eventIds s)
    (h : LoggedBegins start s) (next : serve s event = some s') : LoggedBegins start s' := by
  intro t used
  cases serve_serves next with
  | transaction moved other =>
    rcases used_step moved used with before | ⟨call, clock, now, rfl⟩
    · exact h t before
    · exact absurd rfl (other t call clock now)
  | tickRead idle found => exact absurd idle ticking.busy
  | @tickBegin eventId todo snapshot call u clock now db decided begun =>
    rcases used_step begun used with before | ⟨_, _, _, same⟩
    · rcases h t before with old | ⟨entry, member, opened⟩
      · exact Or.inl old
      · exact Or.inr ⟨entry, List.mem_append_left _ member, opened⟩
    · obtain ⟨rfl, -⟩ := Action.begin.inj same
      exact Or.inr ⟨_, List.mem_append_right _ (List.mem_singleton_self _), rfl⟩
  | tickPass ready nothing | tickFails decided =>
    rcases h t used with old | ⟨entry, member, opened⟩
    · exact Or.inl old
    · exact Or.inr ⟨entry, List.mem_append_left _ member, opened⟩
  | attempt received begun | placeBegin checked begun => exact absurd own (by simp [Event.Own])
  | _ => exact h t used

/-- With no other transaction there is none to lose a lock to. -/
theorem entry_settles_alone {start : Database} {eventIds : List UUID} {s : Service} {entry : Reconciled} {id : UUID}
    {bet : Bet} (quiet : ∀ t tx, start.slots t ≠ .active tx) (ticking : Ticking start eventIds s)
    (logged : LoggedBegins start s) (since : Since start s.db) (accounts : Accounts s.db)
    (clean : ∀ entry ∈ s.log, entry.Clean s.db) (member : entry ∈ s.log) (final : entry.lookup.Final)
    (row : start.table.rows.lookup id = some bet) (event : entry.eventId = bet.eventId) : s.db.Decided id := by
  rcases entry_settles ticking since accounts (.refl _) member final (clean entry member) row event with
    decided | ⟨t, tx, u, ux, opened, here, passed, other, unended, ended⟩
  · exact decided
  · have used : s.db.slots u ≠ .unused := by rcases ended with active | aborted <;> simp [*]
    have fresh : start.slots u = .unused := by
      rcases unended with unused | ⟨tx₀, active⟩
      · exact unused
      · exact absurd active (quiet u tx₀)
    rcases logged u used with old | ⟨entry', member', opened'⟩
    · exact absurd fresh old
    · obtain ⟨-, vx, found, calls⟩ := ticking.opened entry' member' u opened'
      obtain ⟨v, wx, opened'', done⟩ := (clean entry' member').2 ((Lookup.final_iff _).mpr ⟨_, calls⟩)
      obtain rfl := Option.some.inj (opened'.symm.trans opened'')
      rcases ended with active | aborted
      · exact absurd (active.symm.trans done) (by simp)
      · exact absurd (aborted.symm.trans done) (by simp)

/-- Once a tick and what overlapped it have ended, a bet that was PENDING at its start and whose event is
finished or missing is settled, unless its row was locked for a transaction that aborted. -/
theorem no_bet_stuck_past_tick {rows : AList fun _ : UUID => Bet} {front middle back : List Event}
    {before first last after final : Service} {eventIds : List UUID}
    (reached : run serve (Service.start rows) front = some before)
    (reads : serve before (.tick (.read eventIds)) = some first)
    (ticks : run serve first middle = some last) (one : ∀ event ∈ middle, event ≠ .tick .stop)
    (stops : serve last (.tick .stop) = some after) (continues : run serve after back = some final)
    (ended : ∀ t tx ux, after.db.slots t = .active tx → final.db.slots t ≠ .active ux)
    {id : UUID} {bet : Bet} (row : before.db.table.rows.lookup id = some bet) (pending : bet.status = .pending) :
    (∃ entry ∈ after.log, entry.eventId = bet.eventId) ∧
    (∀ entry ∈ after.log, entry.eventId = bet.eventId → entry.lookup.Final → entry.Clean after.db →
      final.db.Decided id ∨ entry.LockLost final.db id) ∧
    ((∀ t tx, before.db.slots t ≠ .active tx) → (∀ event ∈ middle, event.Own) →
      (∀ entry ∈ after.log, entry.Clean after.db) →
      ∀ entry ∈ after.log, entry.eventId = bet.eventId → entry.lookup.Final → after.db.Decided id) := by
  obtain ⟨inv, accounts⟩ := run_service reached
  obtain ⟨sameDb, reading⟩ := read_ticking inv reads
  have ticking : Ticking before.db eventIds last :=
    run_invariant_of (P := Ticking before.db eventIds) (fun _ _ _ => ticking_step) one reading ticks
  obtain ⟨ready, rfl⟩ : last.tick = .ready [] ∧ after = { last with tick := .idle } := by
    cases serve_serves stops with
    | tickStop done => exact ⟨done, rfl⟩
  obtain ⟨duringActions, during⟩ := run_db ticks
  rw [sameDb] at during
  obtain ⟨afterActions, afterwards⟩ := run_db continues
  obtain ⟨lastInv, lastAccounts⟩ := run_accounts inv accounts during
  obtain ⟨finalInv, finalAccounts⟩ := run_accounts lastInv lastAccounts afterwards
  have later := run_later lastInv afterwards
  refine ⟨?_, ?_, ?_⟩
  · have listed : bet.eventId ∈ eventIds := by
      cases serve_serves reads with
      | tickRead idle found => exact found.mem_iff.mpr (mem_getPendingEventIds row pending)
    have order := ticking.order
    simp only [ready, Tick.remaining, List.append_nil] at order
    rw [← order] at listed
    exact List.mem_map.mp listed
  · intro entry member event looked clean
    have since := run_since inv accounts (run_append.mpr ⟨_, during, afterwards⟩)
    rcases entry_settles ticking since finalAccounts later member looked clean row event with
      decided | ⟨t, tx, u, ux, opened, here, passed, other, unended, active | aborted⟩
    · exact Or.inl decided
    · have unusedOrActive := later.ended active
      obtain ⟨-, -, vx, found, -⟩ := (lastAccounts.scanned t tx (congrArg Slot.tx here)).skipped id u passed
      rcases unusedOrActive with unused | ⟨tx₀, still⟩
      · rw [unused] at found
        cases found
      · exact absurd active (ended u tx₀ ux still)
    · exact Or.inr ⟨t, tx, u, ux, opened, later.committed here, passed, other, aborted⟩
  · intro quiet own clean entry member event looked
    have start : LoggedBegins before.db first := fun t used => Or.inl (sameDb ▸ used)
    have held := run_invariant_of (P := fun s => Ticking before.db eventIds s ∧ LoggedBegins before.db s)
      (fun _ event _ (allowed : event.Own ∧ event ≠ .tick .stop) held next => ⟨ticking_step allowed.2 held.1 next,
        loggedBegins_step allowed.1 allowed.2 held.1 held.2 next⟩)
      (fun event member => ⟨own event member, one event member⟩) ⟨reading, start⟩ ticks
    have decided : last.db.Decided id := entry_settles_alone quiet ticking held.2 (run_since inv accounts during)
      lastAccounts clean member looked row event
    exact decided

end

/-- The one event with PENDING bets is gone, and a message of it is being settled: the handler has the row of bet 101
while the tick scans. -/
def cancelTick : List Event :=
  [.handler 0 (.deliver wonMessage), .handler 0 (.attempt 1 1 2), .transaction (.select 1),
   .transaction (.visit 1 101), .tick (.lookup (.answered none)), .tick (.begin 0 2 3), .transaction (.select 0),
   .transaction (.visit 0 100), .transaction (.visit 0 101), .transaction (.fetch 0 4), .transaction (.update 0),
   .transaction (.commit 0), .tick .next]

/-- The handler goes on after the tick. -/
def afterTick : List Event :=
  [.transaction (.visit 1 100), .transaction (.fetch 1 5), .transaction (.update 1), .transaction (.commit 1),
   .handler 0 .ack]

theorem no_bet_stuck_past_tick_cancelTick : ∃ final,
    run serve (Service.start twoBets) (.tick (.read [7]) :: (cancelTick ++ .tick .stop :: afterTick)) = some final ∧
      ∀ id ∈ [100, 101], final.db.Decided id := by
  obtain ⟨final, reached⟩ := Option.isSome_iff_exists.mp (show (run serve (Service.start twoBets)
    (.tick (.read [7]) :: (cancelTick ++ .tick .stop :: afterTick))).isSome = true by decide)
  have facts : (run serve (Service.start twoBets) (.tick (.read [7]) :: (cancelTick ++ .tick .stop :: afterTick))).map
      (fun s => (s.db.slots 0, s.db.slots 1)) = some (
        .committed ⟨.cancelBetsForEvent 7, 3, 2, .updated, [100, 101], [100], [(101, 1)]⟩,
        .committed ⟨.settleBetsForEvent 7 .finishedWin .consumer, 2, 5, .updated, [100, 101], [101], []⟩) := by
    decide
  have ticked : (run serve (Service.start twoBets) (.tick (.read [7]) :: (cancelTick ++ [.tick .stop]))).map
      (fun s => (s.log, s.db.slots 0)) = some ([⟨7, .answered none, some 0⟩],
        .committed ⟨.cancelBetsForEvent 7, 3, 2, .updated, [100, 101], [100], [(101, 1)]⟩) := by decide
  rw [reached] at facts
  simp only [Option.map_some, Option.some.injEq, Prod.mk.injEq] at facts
  obtain ⟨zero, one⟩ := facts
  have committed : ∀ u, (∃ ux, final.db.slots u = .committed ux) ∨ final.db.slots u = .unused := by
    intro u
    by_cases first : u = 0
    · exact Or.inl ⟨_, first ▸ zero⟩
    · by_cases second : u = 1
      · exact Or.inl ⟨_, second ▸ one⟩
      · exact Or.inr (run_serve_other_slot reached
          (by simp [cancelTick, afterTick, Event.tx, Action.tx, Ne.symm first, Ne.symm second]))
  have idle : ∀ u ux, final.db.slots u ≠ .active ux := by
    intro u ux active
    rcases committed u with ⟨vx, ended⟩ | unused
    · cases active.symm.trans ended
    · cases active.symm.trans unused
  obtain ⟨first, reads, rest⟩ := run_cons.mp reached
  obtain ⟨last, ticks, rest⟩ := run_append.mp rest
  obtain ⟨after, stops, continues⟩ := run_cons.mp rest
  have toAfter : run serve (Service.start twoBets) (.tick (.read [7]) :: (cancelTick ++ [.tick .stop])) = some after :=
    run_cons.mpr ⟨first, reads, run_snoc.mpr ⟨last, ticks, stops⟩⟩
  rw [toAfter] at ticked
  simp only [Option.map_some, Option.some.injEq, Prod.mk.injEq] at ticked
  obtain ⟨log, done⟩ := ticked
  refine ⟨final, reached, fun id member => ?_⟩
  obtain ⟨bet, row, pending⟩ : ∃ bet, (Service.start twoBets).db.table.rows.lookup id = some bet ∧
      bet.status = .pending ∧ bet.eventId = 7 := by
    simp only [List.mem_cons, List.not_mem_nil, or_false] at member
    rcases member with rfl | rfl
    · exact ⟨_, rfl, rfl, rfl⟩
    · exact ⟨_, rfl, rfl, rfl⟩
  have settled := no_bet_stuck_past_tick (show run serve (Service.start twoBets) [] = some _ from rfl) reads
    ticks (by simp [cancelTick]) stops continues (fun t _ ux _ => idle t ux) row pending.1
  rcases settled.2.1 ⟨7, .answered none, some 0⟩ (by simp [log]) pending.2.symm trivial
      ⟨by simp, fun _ => ⟨0, _, rfl, done⟩⟩ with decided | ⟨t, tx, u, ux, -, -, -, -, aborted⟩
  · exact decided
  · rcases committed u with ⟨vx, ended⟩ | unused
    · cases aborted.symm.trans ended
    · cases aborted.symm.trans unused

end BetSettlement.BetMaker
