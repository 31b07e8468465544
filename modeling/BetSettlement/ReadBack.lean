import BetSettlement.AtLeastOnce
import BetSettlement.BetMaker.Reads

/-!
# What has been read stays true

Between two requests of a client anything may happen: other requests, deliveries, ticks, lost connections, and
either process may end.
-/

namespace BetSettlement
open Python Machine BetMaker

section
variable [Pydantic]

/-- Neither the traffic nor the end of a process takes back what is committed. -/
theorem carried_later {s s' : Bus} {traffic : Traffic} (inv : BetMaker.Inv s.service.db)
    (next : s.step traffic = some s') : s.service.db.Later s'.service.db := by
  cases step_carried next with
  | deliver delivered served => exact serve_later inv served
  | service own observed served => exact serve_later inv served
  | crash => exact sever_later s.service.db
  | _ => exact .refl s.service.db

theorem carried_readable {s s' : Bus} {traffic : Traffic} (inv : BetMaker.Inv s.service.db)
    (readable : Readable s.service.db) (next : s.step traffic = some s') : Readable s'.service.db := by
  have serves : ∀ {event service}, serve s.service event = some service → Readable service.db := by
    intro event service served
    rcases serve_db served with same | ⟨action, moved⟩
    · rw [same]
      exact readable
    · exact readable_step inv readable moved
  cases step_carried next with
  | deliver delivered served => exact serves served
  | service own observed served => exact serves served
  | crash => exact sever_readable readable
  | _ => exact readable

theorem run_readable {traffic : List Traffic} {s : Bus} (reached : run Bus.step Bus.init traffic = some s) :
    Readable s.service.db := by
  have kept := run_invariant (P := fun s => Delivering s ∧ Readable s.service.db)
    (fun s traffic s' held next =>
      ⟨delivering_step held.1 next, carried_readable held.1.dispatched.inv held.2 next⟩)
    ⟨init_delivering, start_readable⟩ reached
  exact kept.2

theorem run_carried_later {before after : Bus} {traffic : List Traffic} (delivering : Delivering before)
    (reached : run Bus.step before traffic = some after) : before.service.db.Later after.service.db :=
  run_relates (R := fun s s' : Bus => s.service.db.Later s'.service.db) (fun _ _ _ => delivering_step)
    (fun s => .refl s.service.db) (fun _ _ _ => .trans)
    (fun _ _ _ held next => carried_later held.dispatched.inv next) delivering reached

/-- The answers at one instant agree with each other, and with all answers before it: a bet that was listed, or
that a request was told of, is listed from then on, and changes its status at most once. -/
theorem bets_read_back {front back : List Traffic} {before after : Bus}
    (reached : run Bus.step Bus.init front = some before) (continued : run Bus.step before back = some after)
    {scan scan' : List Bet} (scans : Scans before.service.db scan) (scans' : Scans after.service.db scan') :
    Consistent after.service.db (listBets scan') ∧
    (∀ read ∈ listBets scan, ∃ read' ∈ listBets scan', read.Later read') ∧
    ∀ p eventId read, before.service.postBet p eventId = some ⟨201, .bet read⟩ →
      ∃ read' ∈ listBets scan', read.Later read' := by
  have later := run_carried_later (run_delivering reached) continued
  refine ⟨readable_consistent (run_readable (run_append.mpr ⟨before, reached, continued⟩)) scans',
    listed_later scans scans' later, fun p eventId read posted => ?_⟩
  exact posted_later (run_readable reached) later scans' posted

end

/-- A bet on event 7 is placed by request 0. -/
def betOnSeven : List Traffic :=
  [.declare, .provider (.spawn 0 (.createEvent ⟨7, ⟨false, 150, -2⟩, 90⟩)), .provider (.resume 0),
   .provider (.advance 10), .provider (.advance 10), .provider (.advance 10),
   .service (.place 0 (.lookup 7 ⟨false, 10, 0⟩ (.answered (some ⟨7, .aware 90, .new⟩)) 15)),
   .service (.place 0 (.begin 0 15 16)), .service (.transaction (.insert 0 100)), .service (.transaction (.commit 0))]

/-- The first attempt to settle it ends with the process, the second one commits. -/
def settleAfterCrash : List Traffic :=
  [.provider (.spawn 1 (.setEventState ⟨7, ⟨false, 175, -2⟩, 90, .finishedWin, "r"⟩)), .provider (.resume 1),
   .provider (.advance 20), .provider (.advance 20), .provider (.advance 20), .provider (.advance 20),
   .arrive sevenPublished, .deliver 0, .service (.handler 0 (.attempt 1 30 31)),
   .service (.transaction (.select 1)), .service (.transaction (.visit 1 100)), .crash, .deliver 0,
   .service (.handler 0 (.attempt 2 40 41)), .service (.transaction (.select 2)),
   .service (.transaction (.visit 2 100)), .service (.transaction (.fetch 2 42)),
   .service (.transaction (.update 2)), .service (.transaction (.commit 2))]

theorem bets_read_back_settleAfterCrash : ∃ before after reads read,
    run Bus.step Bus.init betOnSeven = some before ∧ run Bus.step before settleAfterCrash = some after ∧
    before.service.postBet 0 7 = some ⟨201, .bet ⟨100, 7, ⟨false, 1000, -2⟩, .pending, 16⟩⟩ ∧
    Consistent after.service.db reads ∧ read ∈ reads ∧
    read.id = 100 ∧ getBet after.service.db 100 = ⟨200, .bet read⟩ ∧ read.status = .won := by
  obtain ⟨after, whole⟩ := Option.isSome_iff_exists.mp
    (show (run Bus.step Bus.init (betOnSeven ++ settleAfterCrash)).isSome = true by decide)
  obtain ⟨before, reached, continued⟩ := run_append.mp whole
  have told : (run Bus.step Bus.init betOnSeven).map (fun s => s.service.postBet 0 7) =
      some (some ⟨201, .bet ⟨100, 7, ⟨false, 1000, -2⟩, .pending, 16⟩⟩) := by decide
  have found : (run Bus.step Bus.init (betOnSeven ++ settleAfterCrash)).map (fun s => getBet s.service.db 100) =
      some ⟨200, .bet ⟨100, 7, ⟨false, 1000, -2⟩, .won, 16⟩⟩ := by decide
  rw [reached] at told
  rw [whole] at found
  have posted := Option.some.inj told
  obtain ⟨consistent, -, later⟩ := bets_read_back reached continued (.refl _) (.refl _)
  obtain ⟨read, listed, same⟩ := later 0 7 _ posted
  have answer := (consistent.single 100 read).mpr ⟨listed, same.id⟩
  refine ⟨before, after, _, read, reached, continued, posted, consistent, listed, same.id, answer, ?_⟩
  have twice := answer.symm.trans (Option.some.inj found)
  simp only [Answer.mk.injEq, Body.bet.injEq, true_and] at twice
  rw [twice]

end BetSettlement
