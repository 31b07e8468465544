import BetSettlement.Agreement

/-!
# When a bet is accepted

`place_bet` checks a snapshot before it opens its transaction, so line-provider may finish the event
between the lookup and the commit. Nothing else can have changed.
-/

namespace BetSettlement
open Python Machine BetMaker

section
variable [Pydantic]

def Open (provider : LineProvider.State) (eventId : UUID) : Prop :=
  ∃ event, provider.data.lookup eventId = some event ∧ event.state = .new

/-- The lookup of call `p`, at which the event was NEW and its deadline ahead. -/
def LookedUp (front : List Occurrence) (p : Nat) (eventId : UUID) (amount : Decimal) : Prop :=
  ∃ earlier later lookup now asked event,
    front = earlier ++ .service (.place p (.lookup eventId amount lookup now)) :: later ∧
    run System.step System.init earlier = some asked ∧ asked.provider.data.lookup eventId = some event ∧
    event.state = .new ∧ now < event.deadline

theorem LookedUp.later {front : List Occurrence} {p : Nat} {eventId : UUID} {amount : Decimal}
    (h : LookedUp front p eventId amount) (occurrence : Occurrence) :
    LookedUp (front ++ [occurrence]) p eventId amount := by
  obtain ⟨earlier, later, lookup, now, asked, event, rfl, rest⟩ := h
  exact ⟨earlier, later ++ [occurrence], lookup, now, asked, event, by simp, rest⟩

structure Asked (front : List Occurrence) (s : System) : Prop where
  reached : run System.step System.init front = some s
  reasoned : s.service.Reasoned
  checked : ∀ p eventId amount, s.service.placing p = .checked eventId amount →
    LookedUp front p eventId amount
  opened : ∀ t tx eventId amount, (s.service.db.slots t).tx = some tx → tx.call = .placeBet eventId amount →
    ∃ p, s.service.placing p = .opened t ∧ LookedUp front p eventId amount

/-- The transactions of `place_bet` after a step that opens none. -/
theorem opened_step {front : List Occurrence} {occurrence : Occurrence} {s : System} {service : Service}
    (asked : Asked front s)
    (calls : ∀ t tx eventId amount, (service.db.slots t).tx = some tx → tx.call = .placeBet eventId amount →
      ∃ tx₀, (s.service.db.slots t).tx = some tx₀ ∧ tx.call = tx₀.call)
    (placing : ∀ p t, s.service.placing p = .opened t → service.placing p = .opened t) (t : TxId) (tx : Transaction)
    (eventId : UUID) (amount : Decimal) (found : (service.db.slots t).tx = some tx)
    (call : tx.call = .placeBet eventId amount) :
    ∃ p, service.placing p = .opened t ∧ LookedUp (front ++ [occurrence]) p eventId amount := by
  obtain ⟨tx₀, found₀, same⟩ := calls t tx eventId amount found call
  obtain ⟨p, opened, looked⟩ := asked.opened t tx₀ eventId amount found₀ (same.symm.trans call)
  exact ⟨p, placing p t opened, looked.later occurrence⟩

theorem service_asked {front : List Occurrence} {s : System} {event : Event} {service : Service}
    (asked : Asked front s) (observed : s.observes event = true) (served : serve s.service event = some service)
    (next : s.step (.service event) = some { s with service }) :
    Asked (front ++ [.service event]) { s with service } := by
  refine ⟨run_snoc.mpr ⟨s, asked.reached, next⟩, reasoned_step asked.reasoned served, ?_, ?_⟩
  · intro p eventId amount checked
    cases serve_serves served with
    | @placeLookup q eventId' amount' lookup now idle =>
      by_cases same : p = q
      · subst same
        have accepted : lookup.placed eventId' amount' now = .checked eventId amount := by
          simpa [setPlacing_same] using checked
        obtain ⟨rfl, rfl, event, found, state, ahead⟩ :=
          checked_open (by simpa [System.observes] using observed) accepted
        exact ⟨front, [], lookup, now, s, event, rfl, asked.reached, found, state, ahead⟩
      · exact (asked.checked p eventId amount (by simpa [setPlacing_other same] using checked)).later _
    | @placeBegin q eventId' amount' t clock now db ready begun =>
      by_cases same : p = q
      · subst same
        simp [setPlacing_same] at checked
      · exact (asked.checked p eventId amount (by simpa [setPlacing_other same] using checked)).later _
    | _ => exact (asked.checked p eventId amount checked).later _
  · cases serve_serves served with
    | transaction moved other =>
      refine opened_step asked (fun t tx eventId amount found call => ?_) fun _ _ => id
      rcases call_step moved found with before | ⟨clock, now, begins⟩
      · exact before
      · exact absurd begins (other t tx.call clock now)
    | tickBegin decided begun =>
      refine opened_step asked (fun t tx eventId amount found call => ?_) fun _ _ => id
      rcases call_step begun found with before | ⟨clock, now, begins⟩
      · exact before
      · obtain ⟨-, same, -⟩ := Action.begin.inj begins
        obtain ⟨settlement, settles, -⟩ := reconcileEvent_settles (asked.reasoned _ _ _ _ decided)
        rw [same, call] at settles
        cases settles
    | attempt received begun =>
      refine opened_step asked (fun t tx eventId amount found call => ?_) fun _ _ => id
      rcases call_step begun found with before | ⟨clock, now, begins⟩
      · exact before
      · obtain ⟨-, same, -⟩ := Action.begin.inj begins
        rw [call] at same
        cases same
    | @placeLookup q eventId' amount' lookup now idle =>
      refine opened_step asked (fun t tx eventId amount found call => ⟨tx, found, rfl⟩) fun p t opened => ?_
      have other : p ≠ q := by
        rintro rfl
        rw [idle] at opened
        cases opened
      rw [setPlacing_other other]
      exact opened
    | @placeBegin q eventId' amount' u clock now db ready begun =>
      intro t tx eventId amount found call
      have kept : ∀ p, s.service.placing p = .opened t → p ≠ q := by
        rintro p opened rfl
        rw [ready] at opened
        cases opened
      rcases call_step begun found with ⟨tx₀, found₀, same⟩ | ⟨clock, now, begins⟩
      · obtain ⟨p, opened, looked⟩ := asked.opened t tx₀ eventId amount found₀ (same.symm.trans call)
        exact ⟨p, (setPlacing_other (kept p opened)).trans opened, looked.later _⟩
      · obtain ⟨rfl, same, -⟩ := Action.begin.inj begins
        obtain ⟨rfl, rfl⟩ := Call.placeBet.inj (same.trans call)
        exact ⟨q, setPlacing_same, (asked.checked q _ _ ready).later _⟩
    | _ => exact opened_step asked (fun t tx eventId amount found call => ⟨tx, found, rfl⟩) fun _ _ => id

theorem asked_step {front : List Occurrence} {s s' : System} {occurrence : Occurrence} (asked : Asked front s)
    (next : s.step occurrence = some s') : Asked (front ++ [occurrence]) s' := by
  have reached := run_snoc.mpr ⟨s, asked.reached, next⟩
  cases step_happens next with
  | service observed served => exact service_asked asked observed served next
  | provider | restart | lose =>
    exact ⟨reached, asked.reasoned, fun p eventId amount checked => (asked.checked p eventId amount checked).later _,
      opened_step asked (fun t tx eventId amount found call => ⟨tx, found, rfl⟩) fun _ _ => id⟩

theorem run_asked {s : System} {occurrences : List Occurrence}
    (reached : run System.step System.init occurrences = some s) : Asked occurrences s := by
  have start : Asked [] System.init :=
    ⟨rfl, (fun _ _ _ _ here => by cases here), (fun _ _ _ here => by cases here),
      (fun _ _ _ _ here => by cases here)⟩
  exact run_history (P := Asked) (fun _ _ _ _ => asked_step) start reached

theorem open_or_final {s s' : System} {occurrence : Occurrence} {eventId : UUID} (sane : s.Sane)
    (up : occurrence ≠ .restart) (next : s.step occurrence = some s') (before : Open s.provider eventId)
    (after : ¬ Open s'.provider eventId) :
    ∃ action terminal, occurrence = .provider action ∧ Final s'.provider eventId terminal := by
  obtain ⟨event, found, new⟩ := before
  cases step_happens next with
  | provider moved =>
    obtain ⟨event', found', -⟩ := LineProvider.stored_step sane.provider moved found
    obtain ⟨terminal, state⟩ := EventState.terminal_of_ne_new fun new' => after ⟨event', found', new'⟩
    exact ⟨_, terminal, rfl, event', found', state⟩
  | restart => exact absurd rfl up
  | lose | service => exact absurd ⟨event, found, new⟩ after

/-- Between `start` and the end of a run the event was finished, by one step of line-provider. -/
def FinishedDuring (start : System) (occurrences : List Occurrence) (eventId : UUID) : Prop :=
  ∃ earlier action later before after terminal, occurrences = earlier ++ .provider action :: later ∧
    run System.step start earlier = some before ∧ Open before.provider eventId ∧
    before.step (.provider action) = some after ∧ Final after.provider eventId terminal

/-- A bet is committed on an event that was NEW, with its deadline ahead, when `place_bet` looked it up, and
that is NEW still unless it was finished between that lookup and the commit. -/
theorem placed_on_open_event {s s' : System} {occurrences : List Occurrence}
    (up : ∀ occurrence ∈ occurrences, occurrence ≠ .restart)
    (reached : run System.step System.init occurrences = some s) {t : TxId} {tx : Transaction} {eventId : UUID}
    {amount : Decimal} (here : s.service.db.slots t = .active tx) (call : tx.call = .placeBet eventId amount)
    (commits : s.step (.service (.transaction (.commit t))) = some s') :
    ∃ p lookup now earlier later asked event,
      occurrences = earlier ++ .service (.place p (.lookup eventId amount lookup now)) :: later ∧
      run System.step System.init earlier = some asked ∧ s.service.placing p = .opened t ∧
      asked.provider.data.lookup eventId = some event ∧ event.state = .new ∧ now < event.deadline ∧
      (Open s'.provider eventId ∨ FinishedDuring asked
        (.service (.place p (.lookup eventId amount lookup now)) :: later) eventId) := by
  obtain ⟨p, opened, earlier, later, lookup, now, asked, event, split, prior, found, state, ahead⟩ :=
    (run_asked reached).opened t tx eventId amount (congrArg Slot.tx here) call
  refine ⟨p, lookup, now, earlier, later, asked, event, split, prior, opened, found, state, ahead, ?_⟩
  have same : s'.provider = s.provider := by
    cases step_happens commits with
    | service => rfl
  rw [same]
  by_cases still : Open s.provider eventId
  · exact Or.inl still
  · subst split
    obtain ⟨asked', prior', rest⟩ := run_append.mp reached
    obtain rfl := Option.some.inj (prior.symm.trans prior')
    obtain ⟨front, occurrence, back, before, after, same, reach, open_, next, closed, -⟩ :=
      run_switches (P := fun s => Open s.provider eventId) ⟨event, found, state⟩ still rest
    have runs : occurrence ≠ .restart := by
      apply up
      rw [same]
      simp
    have sane := run_sane (run_append.mpr ⟨_, prior, reach⟩)
    obtain ⟨action, terminal, rfl, final⟩ := open_or_final sane runs next open_ closed
    exact Or.inr ⟨front, action, back, before, after, terminal, same, reach, open_, next, final⟩

end

/-- The bet is inserted while event 7 is NEW. -/
def promptBet : List Occurrence := createSeven ++ [lookUpSeven 0] ++ insertBet 0 0 100

theorem placed_on_open_event_promptBet :
    ∃ s s' asked event, run System.step System.init promptBet = some s ∧
      s.step (.service (.transaction (.commit 0))) = some s' ∧
      asked.provider.data.lookup 7 = some event ∧ event.state = .new ∧
      (Open s'.provider 7 ∨ ∃ rest, FinishedDuring asked rest 7) := by
  obtain ⟨s', whole⟩ := Option.isSome_iff_exists.mp
    (show (run System.step System.init (promptBet ++ [.service (.transaction (.commit 0))])).isSome = true by decide)
  obtain ⟨s, reached, commits⟩ := run_snoc.mp whole
  have slot : (run System.step System.init promptBet).map (fun s => s.service.db.slots 0) =
      some (.active ⟨.placeBet 7 ⟨false, 10, 0⟩, 16, 0, .inserted ⟨100, 7, ⟨false, 1000, -2⟩, .pending, 16, 16,
        none, none⟩, [], [], []⟩) := by decide
  rw [reached] at slot
  have up : ∀ occurrence ∈ promptBet, occurrence ≠ .restart := by
    simp [promptBet, createSeven, lookUpSeven, insertBet]
  obtain ⟨_, _, _, _, _, asked, event, -, -, -, found, state, -, ended⟩ :=
    placed_on_open_event up reached (Option.some.inj slot) rfl commits
  exact ⟨s, s', asked, event, reached, commits, found, state, ended.imp_right fun finished => ⟨_, finished⟩⟩

/-- Event 7 finishes between the lookup and the insert. -/
def lateBet : List Occurrence := createSeven ++ [lookUpSeven 0] ++ finishSeven ++ insertBet 0 0 100

/-- The bet is committed on an event that had finished before the row existed, and the message that had been
published by then settles it as WON. -/
theorem bet_placed_on_finished_event :
    ∃ s s' final, run System.step System.init lateBet = some s ∧ sevenWon ∈ s.channel ∧
      s.service.db.status 100 = none ∧ s.step (.service (.transaction (.commit 0))) = some s' ∧
      s'.service.db.status 100 = some .pending ∧ ¬ Open s'.provider 7 ∧
      run System.step s' (settleSeven 1 100) = some final ∧ final.service.db.status 100 = some .won := by
  obtain ⟨final, whole⟩ := Option.isSome_iff_exists.mp
    (show (run System.step System.init (lateBet ++ .service (.transaction (.commit 0)) :: settleSeven 1 100)).isSome
      = true by decide)
  obtain ⟨s, reached, rest⟩ := run_append.mp whole
  obtain ⟨s', commits, settles⟩ := run_cons.mp rest
  have before : (run System.step System.init lateBet).map (fun s =>
      (s.channel.contains sevenWon, s.service.db.status 100)) = some (true, none) := by decide
  have after : (run System.step System.init (lateBet ++ [.service (.transaction (.commit 0))])).map (fun s =>
      (s.service.db.status 100, (s.provider.data.lookup 7).map LineProvider.Event.state)) =
      some (some .pending, some .finishedWin) := by decide
  have settled : (run System.step System.init (lateBet ++ .service (.transaction (.commit 0)) ::
      settleSeven 1 100)).map (fun s => s.service.db.status 100) = some (some .won) := by decide
  rw [reached] at before
  rw [run_snoc.mpr ⟨s, reached, commits⟩] at after
  rw [whole] at settled
  simp only [Option.map_some, Option.some.injEq, Prod.mk.injEq, List.contains_iff_mem] at before after settled
  refine ⟨s, s', final, reached, before.1, before.2, commits, after.1, ?_, settles, settled⟩
  rintro ⟨event, found, new⟩
  rw [found] at after
  simp [new] at after

end BetSettlement
