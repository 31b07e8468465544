import BetSettlement.BetMaker.Payloads
import BetSettlement.BetMaker.RunTick

/-!
# An outage is not an absence

`None` comes from a 404 alone, so the reconciler cancels on a 404 alone. A body that does not decode hides the status
that it came with, also a 404 and a 5xx.
-/

namespace BetSettlement.BetMaker
open Python

section
variable [Interpreter] [Decoding]

def Outcome.Missing (outcome : Outcome) : Prop := ∃ reply, outcome = .response reply ∧ reply.statusCode = 404

/-- A 2xx whose body parses as this snapshot. -/
def Outcome.Parses (outcome : Outcome) (snapshot : EventSnapshot) : Prop :=
  ∃ reply, outcome = .response reply ∧ reply.isSuccess = true ∧
    (reply.json >>= EventSnapshot.ofPayload) = .ok snapshot

theorem read_parsed {reply : Response} (success : reply.isSuccess = true) :
    (reply.aread >>= HttpEventLookup.read) = (reply.json >>= EventSnapshot.ofPayload).map some := by
  have parses : HttpEventLookup.read reply = (reply.json >>= EventSnapshot.ofPayload).map some := by
    rw [read_success success, ← bind_assoc]
    cases reply.json >>= EventSnapshot.ofPayload <;> rfl
  unfold Response.aread
  cases found : reply.content with
  | undecoded =>
    simp only [Response.json, found]
    rfl
  | rejected | json => exact parses

theorem read_refused {reply : Response} (present : reply.statusCode ≠ 404) (refused : reply.isSuccess ≠ true) :
    ∃ exc, (reply.aread >>= HttpEventLookup.read) = .error exc := by
  cases decoded : reply.aread with
  | error exc => exact ⟨exc, rfl⟩
  | ok reply' =>
    obtain rfl : reply = reply' := Except.ok.inj ((aread_ok (by rw [decoded]; rfl)).symm.trans decoded)
    refine ⟨.httpStatusError reply.statusCode, ?_⟩
    change HttpEventLookup.read reply = _
    unfold HttpEventLookup.read Response.raiseForStatus
    rw [if_neg present, if_neg refused]
    rfl

theorem read_missing {reply : Response} (missing : reply.statusCode = 404) (decodes : reply.aread.toBool = true) :
    (reply.aread >>= HttpEventLookup.read) = .ok none := by
  rw [aread_ok decodes]
  exact if_pos missing

/-- A 404 is read as one where its body decodes. -/
theorem answer_none {outcome : Outcome} :
    outcome.answer HttpEventLookup.read = .ok none ↔ outcome.Missing ∧ outcome.decodes = true := by
  cases outcome with
  | transportError name => simp [Outcome.answer, Outcome.Missing]
  | response reply =>
    simp only [Outcome.answer, Outcome.decodes, Outcome.Missing, Outcome.response.injEq, exists_eq_left']
    constructor
    · intro absent
      refine ⟨?_, ?_⟩
      · by_contra present
        by_cases success : reply.isSuccess = true
        · rw [read_parsed success] at absent
          cases parsed : reply.json >>= EventSnapshot.ofPayload <;> simp [parsed, Except.map] at absent
        · obtain ⟨exc, raised⟩ := read_refused present success
          cases raised.symm.trans absent
      · by_contra undecoded
        rw [aread_fails (by simpa using undecoded)] at absent
        cases absent
    · rintro ⟨missing, decodes⟩
      exact read_missing missing decodes

theorem answer_some {outcome : Outcome} {snapshot : EventSnapshot} :
    outcome.answer HttpEventLookup.read = .ok (some snapshot) ↔ outcome.Parses snapshot := by
  cases outcome with
  | transportError name => simp [Outcome.answer, Outcome.Parses]
  | response reply =>
    simp only [Outcome.answer, Outcome.Parses, Outcome.response.injEq, exists_eq_left']
    by_cases success : reply.isSuccess = true
    · rw [read_parsed success]
      cases parsed : reply.json >>= EventSnapshot.ofPayload <;> simp [success, Except.map]
    · refine iff_of_false (fun found => ?_) fun both => success both.1
      by_cases missing : reply.statusCode = 404
      · cases decodes : reply.aread.toBool with
        | true => cases (read_missing missing decodes).symm.trans found
        | false =>
          rw [aread_fails decodes] at found
          cases found
      · obtain ⟨exc, raised⟩ := read_refused missing success
        cases raised.symm.trans found

end

theorem mapError_ok {α : Type} {change : Exn → Exn} {result : Except Exn α} {a : α} :
    result.mapError change = .ok a ↔ result = .ok a := by
  cases result <;> simp [Except.mapError]

theorem verdict_cancelled {answer : Except Exn (Option EventSnapshot)} :
    verdict answer = some .cancelled ↔ answer = .ok none := by
  rcases answer with exc | _ | snapshot
  · simp [verdict]
  · simp [verdict]
  · cases state : snapshot.state <;> simp [verdict, state]

theorem call_cancels {lookup : EventLookup} {eventId : UUID} :
    lookup.call eventId = some (.cancelBetsForEvent eventId) ↔ lookup eventId = .ok none := by
  unfold EventLookup.call
  rcases lookup eventId with exc | _ | snapshot
  · simp [Except.toOption]
  · simp [Except.toOption, reconcileEvent]
  · cases state : snapshot.state <;> simp [Except.toOption, reconcileEvent, state]

/-- The transaction of an iteration is a cancellation exactly where the lookup has found the event absent. -/
theorem Iterated.cancels {servers : EventServer} {lookup : EventLookup} {start w : World} {eventId : UUID}
    (iterated : Iterated servers lookup start eventId w) (ready : Ready start) :
    (w.db.slots start.opened).tx.map Transaction.call = some (.cancelBetsForEvent eventId) ↔
      lookup eventId = .ok none := by
  rw [← call_cancels]
  cases calls : lookup.call eventId with
  | none =>
    have fresh := ready.fresh start.opened le_rfl
    rw [iterated.idle calls, fresh]
    simp [Slot.tx]
  | some call => rw [(iterated.transacted call calls).call ready.inv]

theorem Iterated.cancelled {servers : EventServer} {lookup : EventLookup} {start w : World} {eventId id : UUID}
    {bet : Bet} (iterated : Iterated servers lookup start eventId w)
    (row : start.db.table.rows.lookup id = some bet) :
    ∃ bet', w.db.table.rows.lookup id = some bet' ∧ bet.Later bet' ∧ (bet.status ≠ .cancelled →
      (bet'.status = .cancelled ↔ bet.eventId = eventId ∧ bet.status = .pending ∧
        servers.succeeds eventId = true ∧ lookup eventId = .ok none)) := by
  obtain ⟨now, rows⟩ := iterated.rows
  rw [rows, row]
  by_cases own : bet.eventId = eventId
  · subst own
    refine ⟨reconciled servers lookup now bet, by simp, reconciled_later, ?_⟩
    intro uncancelled
    rw [← verdict_cancelled]
    unfold reconciled
    split
    · rename_i both
      cases verdict (lookup bet.eventId) <;> simp [both]
    · rename_i neither
      simp only [uncancelled, true_and, false_iff]
      exact fun all => neither ⟨all.1, all.2.1⟩
  · refine ⟨bet, by simp [own], .refl bet, ?_⟩
    intro uncancelled
    simp [own, uncancelled]

section
variable [Interpreter] [Decoding] [Tenacity] {attempts : Nat}

/-- The lookup ends with outcome `k`, counted from one: it returns `None` where that is a 404 and a snapshot where it is
a 2xx that parses, and it raises on all else. An iteration of the reconciler cancels on the 404, and without a snapshot
either it leaves the database alone. -/
structure Distinguished (attempts : Nat) (outcomes : UUID → Nat → Outcome) (servers : EventServer) (start : Reconciler)
    (eventId : UUID) (k : Nat) : Prop where
  ends : ∃ answer, HttpEventLookup.getEvent attempts (outcomes eventId) 0 = ended k answer ∧
    (answer = .ok none ↔ (outcomes eventId (k - 1)).Missing) ∧
    ∀ snapshot, answer = .ok (some snapshot) ↔ (outcomes eventId (k - 1)).Parses snapshot
  reconciles : ∃ after,
    (Reconciler.reconcileEvent (servers.forEvent eventId)
        (fun asked => HttpEventLookup.answer attempts (outcomes asked)) eventId start = .ok () after ∨
      ∃ exc, Reconciler.reconcileEvent (servers.forEvent eventId)
        (fun asked => HttpEventLookup.answer attempts (outcomes asked)) eventId start = .error exc after) ∧
    ((after.world.db.slots start.world.opened).tx.map Transaction.call = some (.cancelBetsForEvent eventId) ↔
      (outcomes eventId (k - 1)).Missing) ∧
    (∀ id bet, start.world.db.table.rows.lookup id = some bet →
      ∃ bet', after.world.db.table.rows.lookup id = some bet' ∧ bet.Later bet' ∧ (bet.status ≠ .cancelled →
        (bet'.status = .cancelled ↔ bet.eventId = eventId ∧ bet.status = .pending ∧
          servers.succeeds eventId = true ∧ (outcomes eventId (k - 1)).Missing))) ∧
    (¬ (outcomes eventId (k - 1)).Missing → (∀ snapshot, ¬ (outcomes eventId (k - 1)).Parses snapshot) →
      after.world.db = start.world.db)

/-- The bodies of the outcomes that are met before `k` decode, and so does that of `k` if it is a 404. -/
def Legible (outcomes : Nat → Outcome) (k : Nat) : Prop :=
  (∀ i, i + 1 < k → (outcomes i).decodes = true) ∧ ((outcomes (k - 1)).Missing → (outcomes (k - 1)).decodes = true)

omit [Interpreter] [Decoding] [Tenacity] in
/-- Where they decode, the requests go on to the position that the statuses alone give. -/
theorem requests_legible (some_attempt : 0 < attempts) {outcomes : Nat → Outcome}
    (decode : ∀ i, i + 1 < position Outcome.transient attempts outcomes → (outcomes i).decodes = true) :
    requests attempts outcomes = position Outcome.transient attempts outcomes := by
  obtain ⟨positive, bounded⟩ := @position_bounds Outcome.transient attempts outcomes some_attempt
  obtain ⟨before, stops⟩ := @position_first Outcome.transient attempts outcomes
  generalize position Outcome.transient attempts outcomes = k at *
  obtain ⟨n, rfl⟩ := Nat.exists_eq_succ_of_ne_zero positive.ne'
  refine position_eq bounded (fun i early => ?_) ?_
  · rw [Outcome.retryable, before i (Nat.succ_lt_succ early), decode i (Nat.succ_lt_succ early)]
    rfl
  · rcases bounded.lt_or_eq with more | last
    · left
      rw [Outcome.retryable, show (outcomes n).transient = false from stops more]
      rfl
    · exact Or.inr last

omit [Interpreter] [Decoding] [Tenacity] in
/-- The first body that does not decode is the last one that is met. -/
theorem requests_illegible {outcomes : Nat → Outcome} {i : Nat} (undecoded : (outcomes i).decodes = false) :
    requests attempts outcomes ≤ i + 1 := by
  by_contra more
  have again := (@position_first Outcome.retryable attempts outcomes).1 i (not_le.mp more)
  rw [Outcome.retryable, undecoded, Bool.and_false] at again
  cases again

theorem lookup_distinguished (some_attempt : 0 < attempts) (outcomes : UUID → Nat → Outcome) (servers : EventServer)
    {start : Reconciler} (ready : Ready start.world) (eventId : UUID) {k : Nat}
    (last : requests attempts (outcomes eventId) = k)
    (legible : (outcomes eventId (k - 1)).Missing → (outcomes eventId (k - 1)).decodes = true) :
    Distinguished attempts outcomes servers start eventId k := by
  let lookup : EventLookup := fun asked => HttpEventLookup.answer attempts (outcomes asked)
  have ends := getEvent_ends some_attempt (outcomes eventId)
  have answered : lookup eventId = _ := answer_ends some_attempt (outcomes eventId)
  rw [last] at ends answered
  have missing : lookup eventId = .ok none ↔ (outcomes eventId (k - 1)).Missing := by
    rw [answered, mapError_ok, answer_none]
    exact and_iff_left_of_imp legible
  have parses : ∀ snapshot, lookup eventId = .ok (some snapshot) ↔ (outcomes eventId (k - 1)).Parses snapshot := by
    intro snapshot
    rw [answered, mapError_ok, answer_some]
  obtain ⟨after, called, iterated, -⟩ := Reconciler.reconcileEvent_ends servers lookup ready eventId
  refine ⟨⟨lookup eventId, answered ▸ ends, missing, parses⟩, after, called, (iterated.cancels ready).trans missing,
    fun id bet row => ?_, fun present unparsed => ?_⟩
  · rw [← missing]
    exact iterated.cancelled row
  · refine iterated.idle ?_
    rcases answer : lookup eventId with exc | _ | snapshot
    · simp [EventLookup.call, answer, Except.toOption]
    · exact absurd (missing.mp answer) present
    · exact absurd ((parses snapshot).mp answer) (unparsed snapshot)

omit [Interpreter] [Decoding] [Tenacity] in
theorem ended_inj {α : Type} {m n : Nat} {first last : Except Exn α} (same : ended m first = ended n last) :
    m = n ∧ first = last := by
  cases first <;> cases last <;> cases same <;> exact ⟨rfl, rfl⟩

/-- A lookup tells an outage from an absence exactly where the bodies decode. `k` is the first outcome that is neither
a transport error nor a 5xx, or the last attempt. -/
theorem outage_is_not_absence (some_attempt : 0 < attempts) (outcomes : UUID → Nat → Outcome) (servers : EventServer)
    {start : Reconciler} (ready : Ready start.world) (eventId : UUID) :
    ∃ k, (0 < k ∧ k ≤ attempts ∧ (∀ i, i + 1 < k → (outcomes eventId i).transient = true) ∧
        (k < attempts → (outcomes eventId (k - 1)).transient = false)) ∧
      (Distinguished attempts outcomes servers start eventId k ↔ Legible (outcomes eventId) k) := by
  obtain ⟨positive, bounded⟩ := @position_bounds Outcome.transient attempts (outcomes eventId) some_attempt
  obtain ⟨before, stops⟩ := @position_first Outcome.transient attempts (outcomes eventId)
  refine ⟨_, ⟨positive, bounded, before, stops⟩, ?_, ?_⟩
  · intro distinguished
    obtain ⟨answer, ends, missing, -⟩ := distinguished.ends
    obtain ⟨count, answered⟩ := ended_inj ((getEvent_ends some_attempt (outcomes eventId)).symm.trans ends)
    refine ⟨?_, ?_⟩
    · intro i early
      by_contra undecoded
      have few := @requests_illegible attempts _ _ (Bool.eq_false_iff.mpr undecoded)
      omega
    · intro absent
      rw [count] at answered
      have found := answered.trans (missing.mpr absent)
      rw [mapError_ok, answer_none] at found
      exact found.2
  · intro legible
    exact lookup_distinguished some_attempt outcomes servers ready eventId
      (requests_legible some_attempt legible.1) legible.2

end

/-- A 404 whose body does not decode. -/
def garbled : Nat → Outcome := fun _ => .response ⟨404, .undecoded⟩

/-- The absent event is looked up as a failure, and the lookup raises past its clauses. -/
theorem garbled_not_distinguished :
    HttpEventLookup.getEvent 3 garbled 0 = .error .decodingError 1 ∧
    HttpEventLookup.getEvent 3 (fun n => if n = 0 then .response ⟨503, .undecoded⟩ else .response ⟨404, .rejected⟩) 0 =
      .error .decodingError 1 ∧
    ¬ ∀ attempts outcomes servers start eventId, 0 < attempts → Ready start.world →
      ∃ k, (0 < k ∧ k ≤ attempts ∧ (∀ i, i + 1 < k → (outcomes eventId i).transient = true) ∧
          (k < attempts → (outcomes eventId (k - 1)).transient = false)) ∧
        Distinguished attempts outcomes servers start eventId k := by
  refine ⟨rfl, rfl, ?_⟩
  intro distinguished
  obtain ⟨k, -, ends, -⟩ := distinguished 3 (fun _ => garbled) Reconciler.healthyEvents
    { world := { db := .start Reconciler.twoEvents } } 7 (by decide) (start_ready Reconciler.twoEvents)
  obtain ⟨answer, ended_, missing, -⟩ := ends
  have raised : HttpEventLookup.getEvent 3 garbled 0 = ended 1 (.error .decodingError) := rfl
  obtain ⟨-, rfl⟩ := ended_inj (raised.symm.trans ended_)
  cases missing.mpr ⟨⟨404, .undecoded⟩, rfl, rfl⟩

/-- One 503, and then a 404. -/
def restarted : Nat → Outcome
  | 0 => .response ⟨503, .rejected⟩
  | _ => .response ⟨404, .rejected⟩

theorem outage_is_not_absence_restarted :
    ∃ after : Reconciler, HttpEventLookup.getEvent 3 restarted 0 = .ok none 2 ∧
      (after.world.db.slots 0).tx.map Transaction.call = some (.cancelBetsForEvent 7) ∧
      (after.world.db.table.rows.lookup 100).map Bet.status = some .cancelled := by
  have ready : Ready (Reconciler.mk { db := .start Reconciler.twoEvents } []).world := start_ready Reconciler.twoEvents
  obtain ⟨k, ⟨positive, bounded, before, stops⟩, distinguished⟩ := outage_is_not_absence
    (show 0 < 3 by decide) (fun _ => restarted) Reconciler.healthyEvents ready 7
  have decodes : ∀ i, (restarted i).decodes = true := by
    intro i
    cases i <;> rfl
  obtain ⟨⟨answer, ends, absent, -⟩, after, -, cancels, rows, -⟩ :=
    distinguished.mpr ⟨fun i _ => decodes i, fun _ => decodes (k - 1)⟩
  obtain rfl : k = 2 := by
    rcases Nat.lt_trichotomy k 2 with less | same | more
    · obtain rfl : k = 1 := by omega
      cases stops (by decide)
    · exact same
    · cases before 1 more
  have missing : (restarted 1).Missing := ⟨⟨404, .rejected⟩, rfl, rfl⟩
  obtain ⟨bet', row', -, cancelled⟩ := rows 100 _ rfl
  refine ⟨after, ?_, cancels.mpr missing, ?_⟩
  · rw [ends, absent.mpr missing]
    rfl
  · rw [row', Option.map_some, (cancelled (by decide)).mpr ⟨rfl, rfl, rfl, missing⟩]

end BetSettlement.BetMaker
