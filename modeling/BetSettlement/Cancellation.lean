import BetSettlement.Agreement

/-!
# Which bets a 404 cancels

Line-provider may restart with an empty store, and the event may be created again before the
transaction that the 404 called for reads its rows.
-/

namespace BetSettlement
open Python Machine BetMaker

section
variable [Pydantic]

def Occurrence.Ticks : Occurrence → Prop
  | .service (.tick _) => True
  | _ => False

/-- The 404 of the iteration that the tick is in. -/
def Missing (front : List Occurrence) (eventId : UUID) : Prop :=
  ∃ earlier later asked todo, front = earlier ++ .service (.tick (.lookup (.answered none))) :: later ∧
    run System.step System.init earlier = some asked ∧ asked.service.tick = .ready (eventId :: todo) ∧
    asked.provider.data.lookup eventId = none ∧ ∀ occurrence ∈ later, ¬ occurrence.Ticks

/-- The transaction that an iteration opened for its 404. -/
def Begun (front : List Occurrence) (t : TxId) (eventId : UUID) : Prop :=
  ∃ earlier later clock now, front = earlier ++ .service (.tick (.begin t clock now)) :: later ∧
    Missing earlier eventId

/-- The bet was committed, and PENDING on the event, when that transaction issued its SELECT. -/
def Selected (front : List Occurrence) (t : TxId) (eventId id : UUID) : Prop :=
  ∃ earlier later chosen bet, front = earlier ++ .service (.transaction (.select t)) :: later ∧
    Begun earlier t eventId ∧ run System.step System.init earlier = some chosen ∧
    chosen.service.db.table.rows.lookup id = some bet ∧ bet.eventId = eventId ∧ bet.status = .pending

theorem Missing.later {front : List Occurrence} {eventId : UUID} {occurrence : Occurrence}
    (h : Missing front eventId) (quiet : ¬ occurrence.Ticks) : Missing (front ++ [occurrence]) eventId := by
  obtain ⟨earlier, later, asked, todo, rfl, reached, ready, absent, still⟩ := h
  refine ⟨earlier, later ++ [occurrence], asked, todo, by simp, reached, ready, absent, fun other member => ?_⟩
  rcases List.mem_append.mp member with before | now
  · exact still other before
  · exact List.mem_singleton.mp now ▸ quiet

theorem Begun.later {front : List Occurrence} {t : TxId} {eventId : UUID} (h : Begun front t eventId)
    (occurrence : Occurrence) : Begun (front ++ [occurrence]) t eventId := by
  obtain ⟨earlier, later, clock, now, rfl, missing⟩ := h
  exact ⟨earlier, later ++ [occurrence], clock, now, by simp, missing⟩

theorem Selected.later {front : List Occurrence} {t : TxId} {eventId id : UUID} (h : Selected front t eventId id)
    (occurrence : Occurrence) : Selected (front ++ [occurrence]) t eventId id := by
  obtain ⟨earlier, later, chosen, bet, rfl, rest⟩ := h
  exact ⟨earlier, later ++ [occurrence], chosen, bet, by simp, rest⟩

structure Traced (front : List Occurrence) (s : System) : Prop where
  reached : run System.step System.init front = some s
  reasoned : s.service.Reasoned
  decided : ∀ eventId todo snapshot, s.service.tick = .decided eventId snapshot (.cancelBetsForEvent eventId) todo →
    Missing front eventId
  calls : ∀ t tx eventId, (s.service.db.slots t).tx = some tx → tx.call = .cancelBetsForEvent eventId →
    Begun front t eventId ∧ ∀ id ∈ tx.snapshot, Selected front t eventId id

/-- The cancelling transactions after one database step. -/
theorem traced_calls {front : List Occurrence} {occurrence : Occurrence} {s : System} {db : Database}
    {action : Action} (bets : BetMaker.Inv s.service.db) (traced : Traced front s)
    (moved : BetMaker.step s.service.db action = some db)
    (begins : ∀ t eventId clock now, action = .begin t (.cancelBetsForEvent eventId) clock now →
      Begun (front ++ [occurrence]) t eventId)
    (selects : ∀ t, action = .select t → occurrence = .service (.transaction (.select t))) (t : TxId)
    (tx : Transaction) (eventId : UUID) (found : (db.slots t).tx = some tx)
    (call : tx.call = .cancelBetsForEvent eventId) :
    Begun (front ++ [occurrence]) t eventId ∧
      ∀ id ∈ tx.snapshot, Selected (front ++ [occurrence]) t eventId id := by
  have settles : tx.call.settlement = some ⟨eventId, .cancelled, .reconciler⟩ := by
    rw [call]
    rfl
  constructor
  · rcases call_step moved found with ⟨tx₀, found₀, same⟩ | ⟨clock, now, begun⟩
    · exact (traced.calls t tx₀ eventId found₀ (same.symm.trans call)).1.later occurrence
    · rw [call] at begun
      exact begins t eventId clock now begun
  · intro id member
    rcases snapshot_step bets moved found settles member with
      ⟨tx₀, found₀, same, member₀⟩ | ⟨rfl, ⟨tx₀, found₀, same⟩, bet, row, event, pending⟩
    · exact ((traced.calls t tx₀ eventId found₀ (same.symm.trans call)).2 id member₀).later occurrence
    · obtain rfl := selects t rfl
      have begun := (traced.calls t tx₀ eventId found₀ (same.symm.trans call)).1
      exact ⟨front, [], s, bet, rfl, begun, traced.reached, row, event, pending⟩

theorem service_traced {front : List Occurrence} {s : System} {event : Event} {service : Service} (sane : s.Sane)
    (traced : Traced front s) (observed : s.observes event = true) (served : serve s.service event = some service)
    (next : s.step (.service event) = some { s with service }) :
    Traced (front ++ [.service event]) { s with service } := by
  refine ⟨run_snoc.mpr ⟨s, traced.reached, next⟩, reasoned_step traced.reasoned served, ?_, ?_⟩
  · intro eventId todo snapshot decided
    cases serve_serves served with
    | @tickDecide eventId' todo' answer call ready calls =>
      simp only [Tick.decided.injEq] at decided
      obtain ⟨rfl, rfl, rfl, rfl⟩ := decided
      obtain ⟨rfl, -⟩ := reconcileEvent_cancels calls
      have answer : .answered none = getEvent s.provider eventId' := by
        simpa [System.observes, ready] using observed
      exact ⟨front, [], s, todo', rfl, traced.reached, ready, getEvent_none answer.symm, by simp⟩
    | tickRead | tickPass | tickBegin | tickFails | tickNext | tickStop => cases decided
    | _ => exact (traced.decided eventId todo snapshot decided).later id
  · cases serve_serves served with
    | transaction moved other =>
      refine traced_calls sane.bets traced moved (fun t eventId clock now same => ?_) ?_
      · exact absurd same (other t _ clock now)
      · rintro t rfl
        rfl
    | @tickBegin eventId' todo snapshot call u clock' now' db decided begun =>
      refine traced_calls sane.bets traced begun (fun t eventId clock now same => ?_) (by simp)
      obtain ⟨rfl, rfl, rfl, rfl⟩ := Action.begin.inj same
      obtain ⟨-, rfl⟩ := reconcileEvent_cancels (traced.reasoned _ _ _ _ decided)
      exact ⟨front, [], clock', now', rfl, traced.decided _ _ _ decided⟩
    | attempt received begun | placeBegin checked begun =>
      refine traced_calls sane.bets traced begun (fun t eventId clock now same => ?_) (by simp)
      obtain ⟨-, call, -⟩ := Action.begin.inj same
      cases call
    | _ =>
      intro t tx eventId found call
      obtain ⟨begun, selected⟩ := traced.calls t tx eventId found call
      exact ⟨begun.later _, fun id member => (selected id member).later _⟩

theorem traced_step {front : List Occurrence} {s s' : System} {occurrence : Occurrence} (sane : s.Sane)
    (traced : Traced front s) (next : s.step occurrence = some s') : Traced (front ++ [occurrence]) s' := by
  have reached := run_snoc.mpr ⟨s, traced.reached, next⟩
  cases step_happens next with
  | service observed served => exact service_traced sane traced observed served next
  | provider | restart | lose =>
    refine ⟨reached, traced.reasoned, fun eventId todo snapshot decided => ?_, fun t tx eventId found call => ?_⟩
    · exact (traced.decided eventId todo snapshot decided).later id
    · obtain ⟨begun, selected⟩ := traced.calls t tx eventId found call
      exact ⟨begun.later _, fun id member => (selected id member).later _⟩

theorem run_traced {s : System} {occurrences : List Occurrence}
    (reached : run System.step System.init occurrences = some s) : s.Sane ∧ Traced occurrences s := by
  have start : Traced [] System.init :=
    ⟨rfl, (fun _ _ _ _ here => by cases here), (fun _ _ _ here => by cases here), (fun _ _ _ found => by cases found)⟩
  exact run_history (P := fun front s => s.Sane ∧ Traced front s)
    (fun _ _ _ _ held next => ⟨sane_step held.1 next, traced_step held.1 held.2 next⟩) ⟨init_sane, start⟩ reached

/-- A bet becomes CANCELLED only by the transaction that the reconciler opened for a 404, and only if it was
committed and PENDING on that event when the transaction issued its SELECT. -/
theorem cancelled_after_missing {s s' : System} {occurrences : List Occurrence} {occurrence : Occurrence}
    (reached : run System.step System.init occurrences = some s) (next : s.step occurrence = some s') {id : UUID}
    (before : s.service.db.status id ≠ some .cancelled) (after : s'.service.db.status id = some .cancelled) :
    ∃ t eventId, occurrence = .service (.transaction (.commit t)) ∧ Selected occurrences t eventId id := by
  obtain ⟨sane, traced⟩ := run_traced reached
  obtain ⟨bet, row, cancelled⟩ := Option.map_eq_some_iff.mp after
  rcases happens_rows next with same | ⟨action, rfl, moved⟩
  · rw [Database.status, same] at after
    exact absurd after before
  · cases row_step sane.bets moved id with
    | kept same =>
      rw [Database.status, same] at after
      exact absurd after before
    | @settled t tx settlement bet₀ commits here settles member found event pending changed =>
      obtain rfl := Option.some.inj (changed.symm.trans row)
      cases call : tx.call with
      | settleBetsForEvent eventId terminal via =>
        rw [call] at settles
        obtain rfl := Option.some.inj settles
        cases terminal <;> cases cancelled
      | cancelBetsForEvent eventId =>
        have scanned := sane.accounts.scanned t tx (congrArg Slot.tx here)
        exact ⟨t, eventId, by rw [commits], (traced.calls t tx eventId (congrArg Slot.tx here) call).2 id
          (scanned.taken id member)⟩
      | placeBet eventId amount =>
        rw [call] at settles
        cases settles
    | placed commits here phase call create absent changed =>
      obtain rfl := Option.some.inj (changed.symm.trans row)
      rw [(Bet.create_ok create).2.2.1] at cancelled
      cases cancelled

end

/-- The bet on the first event 7 is committed, and line-provider restarts. -/
def restarted : List Occurrence :=
  createSeven ++ [lookUpSeven 0] ++ insertBet 0 0 100 ++
    [.service (.transaction (.commit 0)), .restart, .service (.tick (.read [7]))]

/-- Event 7 is created again, and a bet placed on it, after the 404 and before the SELECT. -/
def recreated : List Occurrence :=
  .service (.tick (.lookup (.answered none))) :: (createSeven ++ [lookUpSeven 1] ++ insertBet 1 1 101 ++
    [.service (.transaction (.commit 1))])

def cancelSeven : List Occurrence :=
  [.service (.tick (.begin 2 0 40)), .service (.transaction (.select 2)), .service (.transaction (.visit 2 101)),
   .service (.transaction (.visit 2 100)), .service (.transaction (.fetch 2 41)),
   .service (.transaction (.update 2))]

/-- The bet did not exist at the 404, and its event is NEW when the cancellation commits. -/
theorem new_bet_cancelled :
    ∃ asked s s', run System.step System.init restarted = some asked ∧ asked.service.db.status 101 = none ∧
      getEvent asked.provider 7 = .answered none ∧
      run System.step asked (recreated ++ cancelSeven) = some s ∧ s.service.db.status 101 = some .pending ∧
      s.step (.service (.transaction (.commit 2))) = some s' ∧ s'.service.db.status 101 = some .cancelled ∧
      (s'.provider.data.lookup 7).map LineProvider.Event.state = some .new := by
  obtain ⟨s', whole⟩ := Option.isSome_iff_exists.mp
    (show (run System.step System.init (restarted ++ ((recreated ++ cancelSeven) ++
      [.service (.transaction (.commit 2))]))).isSome = true by decide)
  obtain ⟨asked, reached, rest⟩ := run_append.mp whole
  obtain ⟨s, selected, commits⟩ := run_snoc.mp rest
  have before : (run System.step System.init restarted).map (fun s =>
      (s.service.db.status 101, getEvent s.provider 7)) = some (none, .answered none) := by decide
  have between : (run System.step System.init (restarted ++ (recreated ++ cancelSeven))).map (fun s =>
      s.service.db.status 101) = some (some .pending) := by decide
  have after : (run System.step System.init (restarted ++ ((recreated ++ cancelSeven) ++
      [.service (.transaction (.commit 2))]))).map (fun s =>
        (s.service.db.status 101, (s.provider.data.lookup 7).map LineProvider.Event.state)) =
      some (some .cancelled, some .new) := by decide
  rw [reached] at before
  rw [run_append.mpr ⟨asked, reached, selected⟩] at between
  rw [whole] at after
  simp only [Option.map_some, Option.some.injEq, Prod.mk.injEq] at before between after
  exact ⟨asked, s, s', reached, before.1, before.2, selected, between, commits, after.1, after.2⟩

theorem cancelled_after_missing_recreated :
    ∃ t eventId, Selected (restarted ++ (recreated ++ cancelSeven)) t eventId 101 := by
  obtain ⟨s', whole⟩ := Option.isSome_iff_exists.mp
    (show (run System.step System.init ((restarted ++ (recreated ++ cancelSeven)) ++
      [.service (.transaction (.commit 2))])).isSome = true by decide)
  obtain ⟨s, reached, commits⟩ := run_snoc.mp whole
  have before : (run System.step System.init (restarted ++ (recreated ++ cancelSeven))).map (fun s =>
      s.service.db.status 101) = some (some .pending) := by decide
  have after : (run System.step System.init ((restarted ++ (recreated ++ cancelSeven)) ++
      [.service (.transaction (.commit 2))])).map (fun s => s.service.db.status 101) =
      some (some .cancelled) := by decide
  rw [reached] at before
  rw [whole] at after
  simp only [Option.map_some, Option.some.injEq] at before after
  obtain ⟨t, eventId, -, selected⟩ := cancelled_after_missing reached commits (by rw [before]; decide) after
  exact ⟨t, eventId, selected⟩

end BetSettlement
