import BetSettlement.BetMaker.Serving
import BetSettlement.BetMaker.Race

/-! What an acknowledged message guarantees. -/

namespace BetSettlement.BetMaker
open Python Machine

section
variable [Pydantic]

/-- The transaction that a delivery's handler is waiting for, or waited for before it acknowledged. -/
structure Handling (s : Service) : Prop where
  attempting : ∀ h message attempts t, s.handlers h = .attempting message attempts t →
    ∃ tx, (s.db.slots t).tx = some tx ∧ tx.call = settleCall message
  acked : ∀ h message t, s.handlers h = .acked message t →
    ∃ tx, s.db.slots t = .committed tx ∧ tx.call = settleCall message

theorem start_handling (rows : AList fun _ : UUID => Bet) : Handling (Service.start rows) where
  attempting h message attempts t here := by cases here
  acked h message t here := by cases here

theorem handling_later {s : Service} {db : Database} (later : s.db.Later db) (h : Handling s) :
    Handling { s with db } where
  attempting handler message attempts t here := by
    obtain ⟨tx, found, call⟩ := h.attempting handler message attempts t here
    obtain ⟨tx', found', grows⟩ := (later.slots t).tx found
    exact ⟨tx', found', grows.call.trans call⟩
  acked handler message t here := by
    obtain ⟨tx, done, call⟩ := h.acked handler message t here
    exact ⟨tx, later.committed done, call⟩

theorem handling_setHandler {s : Service} {handler : Nat} {state : Handler} (h : Handling s)
    (attempting : ∀ message attempts t, state = .attempting message attempts t →
      ∃ tx, (s.db.slots t).tx = some tx ∧ tx.call = settleCall message)
    (acked : ∀ message t, state = .acked message t →
      ∃ tx, s.db.slots t = .committed tx ∧ tx.call = settleCall message) : Handling (s.setHandler handler state) where
  attempting other message attempts t here := by
    by_cases same : other = handler
    · subst same
      exact attempting message attempts t (by simpa [Service.setHandler] using here)
    · exact h.attempting other message attempts t (by simpa [Service.setHandler, same] using here)
  acked other message t here := by
    by_cases same : other = handler
    · subst same
      exact acked message t (by simpa [Service.setHandler] using here)
    · exact h.acked other message t (by simpa [Service.setHandler, same] using here)

theorem handling_step {s s' : Service} {event : Event} (inv : Inv s.db) (h : Handling s)
    (next : serve s event = some s') : Handling s' := by
  cases serve_serves next with
  | transaction moved other => exact handling_later (step_later inv moved) h
  | tickBegin decided begun =>
    have kept := handling_later (step_later inv begun) h
    exact ⟨kept.attempting, kept.acked⟩
  | placeBegin checked begun =>
    have kept := handling_later (step_later inv begun) h
    exact ⟨kept.attempting, kept.acked⟩
  | attempt received begun =>
    apply handling_setHandler (handling_later (step_later inv begun) h)
    · intro message attempts t same
      obtain ⟨rfl, -, rfl⟩ := Handler.attempting.inj same
      exact ⟨_, congrArg Slot.tx (begin_slot begun).2, rfl⟩
    · intro message t same
      cases same
  | ack attempting done =>
    apply handling_setHandler h
    · intro message attempts t same
      cases same
    · intro message t same
      obtain ⟨rfl, rfl⟩ := Handler.acked.inj same
      obtain ⟨tx, found, call⟩ := h.attempting _ _ _ _ attempting
      obtain rfl := Option.some.inj ((congrArg Slot.tx done).symm.trans found)
      exact ⟨_, done, call⟩
  | deliver | poison | retry | reject => exact handling_setHandler h (by simp) (by simp)
  | _ => exact ⟨h.attempting, h.acked⟩

theorem run_handling {rows : AList fun _ : UUID => Bet} {s : Service} {events : List Event}
    (h : run serve (Service.start rows) events = some s) : Handling s := by
  have held := run_invariant (P := fun s => Inv s.db ∧ Handling s)
    (fun before event after held next => by
      obtain ⟨actions, moved⟩ := run_db (run_cons.mpr ⟨after, next, run_nil.mpr rfl⟩)
      exact ⟨run_inv held.1 moved, handling_step held.1 held.2 next⟩)
    ⟨start_inv rows, start_handling rows⟩ h
  exact held.2

theorem select_unread {s s' : Service} {t : TxId} (next : serve s (.transaction (.select t)) = some s') :
    s.db.Unread t := by
  cases serve_serves next with
  | transaction moved other =>
    cases step_moves moved with
    | select here settles phase => exact Or.inr ⟨_, here, phase⟩

theorem fetch_read {s s' : Service} {t : TxId} {clock : Instant}
    (next : serve s (.transaction (.fetch t clock)) = some s') :
    ∃ tx, (s'.db.slots t).tx = some tx ∧ tx.Read := by
  cases serve_serves next with
  | transaction moved other =>
    cases step_moves moved with
    | fetch here phase =>
      refine ⟨_, congrArg Slot.tx ((setSlot_slots _ _ _ _).trans (if_pos rfl)), ?_⟩
      simp [Transaction.Read]

/-- Once a message is acknowledged, and the transactions that were open when its SELECT was complete have
ended, a bet of the event that was committed before that SELECT is not PENDING, unless the SELECT found
its row locked by a transaction that aborted. -/
theorem acknowledged_settles {rows : AList fun _ : UUID => Bet} {front scan back : List Event}
    {before selected scanned fetched final : Service} {h : Nat} {message : EventFinishedMessage} {t : TxId}
    {clock : Instant} (reached : run serve (Service.start rows) front = some before)
    (selects : serve before (.transaction (.select t)) = some selected)
    (scans : run serve selected scan = some scanned)
    (fetches : serve scanned (.transaction (.fetch t clock)) = some fetched)
    (continues : run serve fetched back = some final) (acked : final.handlers h = .acked message t)
    (ended : ∀ u ux vx, fetched.db.slots u = .active ux → final.db.slots u ≠ .active vx)
    {id : UUID} {bet : Bet} (row : before.db.table.rows.lookup id = some bet)
    (event : bet.eventId = message.eventId) :
    final.db.Decided id ∨ ∃ tx u ux, final.db.slots t = .committed tx ∧ (id, u) ∈ tx.skipped ∧ u ≠ t ∧
      final.db.slots u = .aborted ux := by
  have upToFetch : run serve before (.transaction (.select t) :: (scan ++ [.transaction (.fetch t clock)])) =
      some fetched := run_cons.mpr ⟨selected, selects, run_snoc.mpr ⟨scanned, scans, fetches⟩⟩
  have whole := run_append.mpr ⟨fetched, upToFetch, continues⟩
  obtain ⟨tx, done, call⟩ := (run_handling (run_append.mpr ⟨before, reached, whole⟩)).acked h message t acked
  obtain ⟨inv, accounts⟩ := run_service reached
  obtain ⟨actions, moved⟩ := run_db upToFetch
  obtain ⟨actions', moved'⟩ := run_db continues
  obtain ⟨fetchedInv, fetchedAccounts⟩ := run_accounts inv accounts moved
  obtain ⟨finalInv, finalAccounts⟩ := run_accounts fetchedInv fetchedAccounts moved'
  have later := run_later fetchedInv moved'
  have since := run_since inv accounts (run_append.mpr ⟨_, moved, moved'⟩)
  have settles : tx.call.settlement = some ⟨message.eventId, terminalToStatus message.newState, .consumer⟩ := by
    rw [call]
    rfl
  rcases committed_settles since finalAccounts (select_unread selects) done settles row event with
    decided | ⟨u, ux, passed, other, -, -, active | aborted⟩
  · exact Or.inl decided
  · -- The holder was open at the SELECT, so it has ended since.
    obtain ⟨tx₀, found, read⟩ := fetch_read fetches
    obtain ⟨tx', found', grows⟩ := (later.slots t).tx found
    obtain rfl : tx = tx' := Option.some.inj ((congrArg Slot.tx done).symm.trans found')
    rw [(grows.read read).2] at passed
    obtain ⟨-, -, vx, used, -⟩ := (fetchedAccounts.scanned t tx₀ found).skipped id u passed
    rcases later.ended active with unused | ⟨wx, open_⟩
    · rw [unused] at used
      cases used
    · exact absurd active (ended u wx ux open_)
  · exact Or.inr ⟨tx, u, ux, done, passed, other, aborted⟩

end

/-- The reconciler has the row of bet 101 while the handler scans, and commits before the handler does. -/
def settleAndAck : List Event :=
  [.handler 0 (.deliver wonMessage), .handler 0 (.attempt 0 3 4), .tick (.read [7]),
   .tick (.lookup (.answered (some ⟨7, .aware 0, .finishedWin⟩))), .tick (.begin 1 1 2), .transaction (.select 1),
   .transaction (.visit 1 101)] ++ .transaction (.select 0) ::
    ([.transaction (.visit 0 100), .transaction (.visit 0 101)] ++ .transaction (.fetch 0 5) ::
      [.transaction (.visit 1 100), .transaction (.fetch 1 6), .transaction (.update 1), .transaction (.commit 1),
       .transaction (.update 0), .transaction (.commit 0), .handler 0 .ack])

theorem acknowledged_settles_settleAndAck : ∃ s, run serve (Service.start twoBets) settleAndAck = some s ∧
    s.handlers 0 = .acked wonMessage 0 ∧ ∀ id ∈ [100, 101], s.db.Decided id := by
  obtain ⟨s, reached⟩ := Option.isSome_iff_exists.mp
    (show (run serve (Service.start twoBets) settleAndAck).isSome = true by decide)
  have facts : (run serve (Service.start twoBets) settleAndAck).map (fun s =>
      (s.handlers 0, s.db.slots 0, s.db.slots 1)) = some (.acked wonMessage 0,
        .committed ⟨.settleBetsForEvent 7 .finishedWin .consumer, 4, 5, .updated, [100, 101], [100], [(101, 1)]⟩,
        .committed ⟨.settleBetsForEvent 7 .finishedWin .reconciler, 2, 6, .updated, [100, 101], [101], [(100, 0)]⟩) := by
    decide
  rw [reached] at facts
  simp only [Option.map_some, Option.some.injEq, Prod.mk.injEq] at facts
  obtain ⟨acked, zero, one⟩ := facts
  have committed : ∀ u, (∃ ux, s.db.slots u = .committed ux) ∨ s.db.slots u = .unused := by
    intro u
    by_cases first : u = 0
    · exact Or.inl ⟨_, first ▸ zero⟩
    · by_cases second : u = 1
      · exact Or.inl ⟨_, second ▸ one⟩
      · exact Or.inr (run_serve_other_slot reached
          (by simp [settleAndAck, Event.tx, Action.tx, Ne.symm first, Ne.symm second]))
  have idle : ∀ u ux, s.db.slots u ≠ .active ux := by
    intro u ux active
    rcases committed u with ⟨vx, done⟩ | unused
    · cases active.symm.trans done
    · cases active.symm.trans unused
  obtain ⟨before, delivers, rest⟩ := run_append.mp reached
  obtain ⟨selected, selects, rest⟩ := run_cons.mp rest
  obtain ⟨scanned, scans, rest⟩ := run_append.mp rest
  obtain ⟨fetched, fetches, continues⟩ := run_cons.mp rest
  refine ⟨s, reached, acked, fun id member => ?_⟩
  have delivered : (run serve (Service.start twoBets) (settleAndAck.take 7)).map (fun s =>
      [100, 101].map fun id => (s.db.table.rows.lookup id).map Bet.eventId) = some [some 7, some 7] := by decide
  rw [show run serve (Service.start twoBets) (settleAndAck.take 7) = some before from delivers] at delivered
  obtain ⟨bet, row, event⟩ : ∃ bet, before.db.table.rows.lookup id = some bet ∧ bet.eventId = wonMessage.eventId := by
    have events := Option.some.inj delivered
    simp only [List.mem_cons, List.not_mem_nil, or_false] at member
    rcases member with rfl | rfl
    · exact Option.map_eq_some_iff.mp (List.cons.inj events).1
    · exact Option.map_eq_some_iff.mp (List.cons.inj (List.cons.inj events).2).1
  rcases acknowledged_settles delivers selects scans fetches continues acked (fun u _ vx _ => idle u vx) row event with
    decided | ⟨_, u, ux, -, -, -, aborted⟩
  · exact decided
  · rcases committed u with ⟨vx, done⟩ | unused
    · cases aborted.symm.trans done
    · cases aborted.symm.trans unused

/-- The reconciler holds the row while the handler scans, and its transaction aborts after the ack. -/
def lostLock : List Event :=
  [.tick (.read [7]), .tick (.lookup (.answered (some ⟨7, .aware 0, .finishedWin⟩))), .tick (.begin 0 1 2),
   .transaction (.select 0), .transaction (.visit 0 100),
   .handler 0 (.deliver wonMessage), .handler 0 (.attempt 1 3 4), .transaction (.select 1),
   .transaction (.visit 1 100), .transaction (.fetch 1 5), .transaction (.commit 1), .handler 0 .ack,
   .transaction (.abort 0)]

/-- The message is acknowledged and every transaction has ended, yet the bet is PENDING. -/
theorem acknowledged_bet_pending :
    (oneBet.lookup 100).map (fun bet => (bet.eventId, bet.status)) = some (7, .pending) ∧
    ∃ s, run serve (Service.start oneBet) lostLock = some s ∧ s.handlers 0 = .acked wonMessage 1 ∧
      (∀ u ux, s.db.slots u ≠ .active ux) ∧ s.db.status 100 = some .pending := by
  refine ⟨by decide, ?_⟩
  obtain ⟨s, reached⟩ := Option.isSome_iff_exists.mp
    (show (run serve (Service.start oneBet) lostLock).isSome = true by decide)
  have facts : (run serve (Service.start oneBet) lostLock).map (fun s =>
      (s.handlers 0, s.db.slots 0, s.db.slots 1, s.db.status 100)) = some (.acked wonMessage 1,
        .aborted ⟨.settleBetsForEvent 7 .finishedWin .reconciler, 2, 1, .selecting [], [100], [100], []⟩,
        .committed ⟨.settleBetsForEvent 7 .finishedWin .consumer, 4, 5, .fetched, [100], [], [(100, 0)]⟩,
        some .pending) := by decide
  rw [reached] at facts
  simp only [Option.map_some, Option.some.injEq, Prod.mk.injEq] at facts
  obtain ⟨acked, zero, one, status⟩ := facts
  refine ⟨s, reached, acked, fun u ux active => ?_, status⟩
  by_cases first : u = 0
  · simp [← first, active] at zero
  · by_cases second : u = 1
    · simp [← second, active] at one
    · have unused : s.db.slots u = .unused := run_serve_other_slot reached
        (by simp [lostLock, Event.tx, Action.tx, Ne.symm first, Ne.symm second])
      exact absurd (active.symm.trans unused) (by simp)

end BetSettlement.BetMaker
