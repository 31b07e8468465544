import BetSettlement.BetMaker.Facades

/-!
# How many requests a lookup takes

A call is repeated after a transport error and after a 5xx whose body decodes, up to its last attempt. What it
raises or returns is what it makes of the last outcome that it has met.
-/

namespace BetSettlement.BetMaker
open Python Std.Do

set_option mvcgen.warning false

/-- Transport errors and 5xx, whatever their bodies. -/
def Outcome.transient : Outcome → Bool
  | .transportError _ => true
  | .response reply => http5xxFloor ≤ reply.statusCode

def Outcome.decodes : Outcome → Bool
  | .transportError _ => true
  | .response reply => reply.aread.toBool

def Outcome.retryable (outcome : Outcome) : Bool := outcome.transient && outcome.decodes

/-- The first outcome that is not to be tried again, counted from one, or the last attempt. -/
def position (again : Outcome → Bool) (attempts : Nat) (outcomes : Nat → Outcome) : Nat :=
  match (List.range attempts).find? fun i => !again (outcomes i) with
  | some i => i + 1
  | none => attempts

def requests (attempts : Nat) (outcomes : Nat → Outcome) : Nat := position Outcome.retryable attempts outcomes

def Outcome.answer {α : Type} (read : Response → Except Exn α) : Outcome → Except Exn α
  | .transportError name => .error (.transportError name)
  | .response reply => reply.aread >>= read

/-- The end of a call after `n` requests. -/
def ended {α : Type} (n : Nat) : Except Exn α → EStateM.Result Exn Nat α
  | .ok a => .ok a n
  | .error exc => .error exc n

theorem answerOf_ended {α : Type} (n : Nat) (result : Except Exn α) : answerOf (ended n result) = result := by
  cases result <;> rfl

section
variable {again : Outcome → Bool}

theorem position_eq {attempts n : Nat} {outcomes : Nat → Outcome} (inside : n < attempts)
    (before : ∀ i < n, again (outcomes i) = true)
    (stops : again (outcomes n) = false ∨ n + 1 = attempts) : position again attempts outcomes = n + 1 := by
  unfold position
  cases found : (List.range attempts).find? fun i => !again (outcomes i) with
  | none =>
    have all := List.find?_range_eq_none.mp found n inside
    rcases stops with stop | last
    · simp [stop] at all
    · exact last.symm
  | some i =>
    obtain ⟨stop, member, first⟩ := List.find?_range_eq_some.mp found
    have least : n ≤ i := by
      by_contra early
      simp [before i (not_le.mp early)] at stop
    have most : i ≤ n := by
      rcases stops with stop' | last
      · by_contra late
        have retried := first n (not_le.mp late)
        simp [stop'] at retried
      · have bound := List.mem_range.mp member
        omega
    exact congrArg (· + 1) (le_antisymm most least)

theorem position_bounds {attempts : Nat} {outcomes : Nat → Outcome} (some_attempt : 0 < attempts) :
    0 < position again attempts outcomes ∧ position again attempts outcomes ≤ attempts := by
  unfold position
  cases found : (List.range attempts).find? fun i => !again (outcomes i) with
  | none => exact ⟨some_attempt, le_rfl⟩
  | some i =>
    obtain ⟨-, member, -⟩ := List.find?_range_eq_some.mp found
    have bound := List.mem_range.mp member
    constructor <;> dsimp only <;> omega

/-- What stands before the position, and why it goes no further. -/
theorem position_first (attempts : Nat) (outcomes : Nat → Outcome) :
    (∀ i, i + 1 < position again attempts outcomes → again (outcomes i) = true) ∧
      (position again attempts outcomes < attempts →
        again (outcomes (position again attempts outcomes - 1)) = false) := by
  unfold position
  cases found : (List.range attempts).find? fun i => !again (outcomes i) with
  | none =>
    have all := List.find?_range_eq_none.mp found
    refine ⟨fun i inside => ?_, fun less => absurd less (lt_irrefl _)⟩
    have retried := all i (by dsimp only at inside; omega)
    simpa using retried
  | some n =>
    obtain ⟨stop, -, first⟩ := List.find?_range_eq_some.mp found
    refine ⟨fun i inside => ?_, fun _ => by simpa using stop⟩
    have retried := first i (by dsimp only at inside; omega)
    simpa using retried

end

section
variable {α : Type} {read : Response → Except Exn α} {attempts : Nat} {outcomes : Nat → Outcome}

theorem request_ends (n : Nat) :
    (AsyncClient.get outcomes >>= fun response => raiseFrom (read response)) n =
      ended (n + 1) ((outcomes n).answer read) := by
  change EStateM.bind (AsyncClient.get outcomes) _ n = _
  unfold EStateM.bind AsyncClient.get
  cases outcomes n with
  | transportError name => rfl
  | response reply =>
    simp only [Outcome.answer]
    cases reply.aread with
    | error exc => rfl
    | ok reply => cases answered : read reply <;> simp only [bind, Except.bind, answered] <;> rfl

/-- Before request `n`, counted from one. -/
def Requesting (attempts : Nat) (outcomes : Nat → Outcome) (n sent : Nat) : Prop :=
  n = sent + 1 ∧ sent < attempts ∧ ∀ i < sent, (outcomes i).retryable = true

/-- The requests have ended with `result`. -/
def Requested (read : Response → Except Exn α) (attempts : Nat) (outcomes : Nat → Outcome) (result : Except Exn α)
    (sent : Nat) : Prop :=
  sent = requests attempts outcomes ∧ (outcomes (sent - 1)).answer read = result

/-- A reader raises what is retried exactly on a 5xx. -/
def Sorts (read : Response → Except Exn α) : Prop :=
  ∀ response, http5xxFloor ≤ response.statusCode ↔ ∃ exc, read response = .error exc ∧ isRetryable exc = true

theorem aread_ok {response : Response} (decodes : response.aread.toBool = true) : response.aread = .ok response := by
  unfold Response.aread at *
  cases found : response.content with
  | undecoded =>
    rw [found] at decodes
    cases decodes
  | rejected | json => rfl

theorem aread_fails {response : Response} (fails : response.aread.toBool = false) :
    response.aread = .error .decodingError := by
  unfold Response.aread at *
  cases found : response.content with
  | undecoded => rfl
  | rejected | json =>
    rw [found] at fails
    cases fails

theorem answer_retryable (sorts : Sorts read) (outcome : Outcome) :
    outcome.retryable = true ↔ ∃ exc, outcome.answer read = .error exc ∧ isRetryable exc = true := by
  cases outcome with
  | transportError name => exact iff_of_true rfl ⟨_, rfl, rfl⟩
  | response reply =>
    simp only [Outcome.retryable, Outcome.transient, Outcome.decodes, Outcome.answer]
    cases decodes : reply.aread.toBool with
    | true =>
      rw [aread_ok decodes, Bool.and_true, decide_eq_true_iff]
      exact sorts reply
    | false =>
      rw [aread_fails decodes, Bool.and_false]
      refine iff_of_false Bool.false_ne_true ?_
      rintro ⟨exc, raised, again⟩
      obtain rfl := Except.error.inj raised
      cases again

theorem request_spec (outcomes : Nat → Outcome) (sorts : Sorts read) (n : Nat) :
    ⦃fun sent => ⌜Requesting attempts outcomes n sent⌝⦄
      (AsyncClient.get outcomes >>= fun response => raiseFrom (read response))
      ⦃post⟨fun a sent => ⌜Requested read attempts outcomes (.ok a) sent⌝,
        fun exc sent => ⌜if isRetryable exc = true ∧ n < attempts then Requesting attempts outcomes (n + 1) sent
          else Requested read attempts outcomes (.error exc) sent⌝⟩⦄ := by
  rw [triple_iff]
  rintro sent ⟨rfl, inside, before⟩
  rw [request_ends]
  have retried := answer_retryable sorts (outcomes sent)
  cases result : (outcomes sent).answer read with
  | ok a =>
    have stops : (outcomes sent).retryable = false := by
      simpa [result] using retried
    exact ⟨(position_eq inside before (Or.inl stops)).symm, result⟩
  | error exc =>
    rw [result] at retried
    dsimp only [ended]
    split
    · rename_i again
      refine ⟨rfl, again.2, fun i earlier => ?_⟩
      rcases Nat.lt_succ_iff_lt_or_eq.mp earlier with old | rfl
      · exact before i old
      · exact retried.mpr ⟨exc, rfl, again.1⟩
    · rename_i done
      refine ⟨(position_eq inside before ?_).symm, result⟩
      by_cases transient : isRetryable exc = true
      · have last : ¬ sent + 1 < attempts := fun more => done ⟨transient, more⟩
        exact Or.inr (by omega)
      · left
        simpa [transient] using retried

/-- What a call with the retries makes of the outcomes. -/
theorem retried_ends [Tenacity] (outcomes : Nat → Outcome) (sorts : Sorts read) (some_attempt : 0 < attempts) :
    makeRetryDecorator attempts (AsyncClient.get outcomes >>= fun response => raiseFrom (read response)) 0 =
      ended (requests attempts outcomes) ((outcomes (requests attempts outcomes - 1)).answer read) := by
  have ends := triple_iff.mp (attempt_spec (request_spec outcomes sorts) 1) 0 ⟨rfl, some_attempt, by simp⟩
  unfold makeRetryDecorator retry
  cases result : Tenacity.attempt attempts isRetryable (fun _ _ n => n)
      (AsyncClient.get outcomes >>= fun response => raiseFrom (read response)) 1 0 with
  | ok a sent =>
    rw [result] at ends
    obtain ⟨rfl, answered⟩ := ends
    rw [answered, ended]
  | error exc sent =>
    rw [result] at ends
    obtain ⟨rfl, answered⟩ := ends
    rw [answered, ended]

/-- What the `except` clauses make of it. -/
theorem reported_ends [Tenacity] (outcomes : Nat → Outcome) (sorts : Sorts read) (some_attempt : 0 < attempts) :
    tryCatch (makeRetryDecorator attempts (AsyncClient.get outcomes >>= fun response => raiseFrom (read response)))
        (fun exc => throw (unavailable exc)) 0 =
      ended (requests attempts outcomes)
        (((outcomes (requests attempts outcomes - 1)).answer read).mapError unavailable) := by
  change EStateM.tryCatch _ _ 0 = _
  unfold EStateM.tryCatch
  rw [retried_ends outcomes sorts some_attempt]
  cases (outcomes (requests attempts outcomes - 1)).answer read <;> rfl

end

/-! ### What the readers raise -/

/-- Nothing that is retried is raised. -/
abbrev Quiet {α : Type} (result : Except Exn α) : Prop := Raises (fun exc => isRetryable exc = false) result

theorem getItem_quiet (value : JsonValue) (key : String) : Quiet (getItem value key) := by
  unfold getItem
  split
  · split
    · exact raises_ok _
    · exact raises_error rfl
  · exact raises_error rfl

theorem json_quiet [Interpreter] (response : Response) : Quiet response.json := by
  unfold Response.json
  split
  · exact raises_error rfl
  · exact raises_error rfl
  · split
    · exact raises_error rfl
    · exact raises_ok _

theorem uuidOf_quiet [Decoding] (value : JsonValue) : Quiet (uuidOf value) := by
  unfold uuidOf
  split
  · split
    · exact raises_ok _
    · exact raises_error rfl
  all_goals exact raises_error rfl

theorem create_quiet [Decoding] (eventId : UUID) (deadline state : JsonValue) :
    Quiet (EventSnapshot.create eventId deadline state) := by
  unfold EventSnapshot.create
  split
  · exact raises_ok _
  · exact raises_error rfl

theorem ofPayload_quiet [Decoding] (payload : JsonValue) : Quiet (EventSnapshot.ofPayload payload) :=
  (getItem_quiet payload _).bind fun value => (uuidOf_quiet value).bind fun eventId =>
    (getItem_quiet payload _).bind fun deadline => (getItem_quiet payload _).bind fun state =>
      create_quiet eventId deadline state

theorem modelValidate_quiet [Decoding] (item : JsonValue) : Quiet (EventRead.modelValidate item) := by
  unfold EventRead.modelValidate
  split
  · dsimp only
    split
    · exact raises_ok _
    · exact raises_error rfl
  · exact raises_error rfl

theorem iterate_quiet (value : JsonValue) : Quiet (iterate value) := by
  unfold iterate
  split
  · exact raises_ok _
  · exact raises_ok _
  · exact raises_ok _
  · exact raises_error rfl

/-- `raise_for_status` is the one that raises what is retried. -/
theorem raiseForStatus_sorts {α : Type} (response : Response) {rest : Except Exn α} (quiet : Quiet rest) :
    http5xxFloor ≤ response.statusCode ↔
      ∃ exc, (response.raiseForStatus >>= fun _ => rest) = .error exc ∧ isRetryable exc = true := by
  unfold Response.raiseForStatus
  by_cases success : response.isSuccess = true
  · have small : ¬ http5xxFloor ≤ response.statusCode := by
      have range : 200 ≤ response.statusCode ∧ response.statusCode ≤ 299 := by simpa [Response.isSuccess] using success
      unfold http5xxFloor
      omega
    refine iff_of_false small ?_
    rintro ⟨exc, raised, again⟩
    rw [if_pos success] at raised
    rw [quiet exc raised] at again
    cases again
  · rw [if_neg success]
    constructor
    · intro large
      exact ⟨_, rfl, decide_eq_true large⟩
    · rintro ⟨exc, raised, again⟩
      obtain rfl := Except.error.inj raised
      exact of_decide_eq_true again

section
variable [Interpreter] [Decoding]

theorem read_sorts : Sorts HttpEventLookup.read := by
  intro response
  unfold HttpEventLookup.read
  by_cases missing : response.statusCode = 404
  · rw [if_pos missing]
    refine iff_of_false (by simp [missing, http5xxFloor]) ?_
    rintro ⟨exc, raised, -⟩
    cases raised
  · rw [if_neg missing]
    exact raiseForStatus_sorts response ((json_quiet response).bind fun payload =>
      (ofPayload_quiet payload).bind fun snapshot => raises_ok (some snapshot))

theorem readEvents_sorts : Sorts readEvents := by
  intro response
  exact raiseForStatus_sorts response ((json_quiet response).bind fun payload =>
    (iterate_quiet payload).bind fun items => raises_mapM modelValidate_quiet items)

variable [Tenacity] {attempts : Nat}

theorem getEvent_ends (some_attempt : 0 < attempts) (outcomes : Nat → Outcome) :
    HttpEventLookup.getEvent attempts outcomes 0 = ended (requests attempts outcomes)
      (((outcomes (requests attempts outcomes - 1)).answer HttpEventLookup.read).mapError unavailable) :=
  reported_ends outcomes read_sorts some_attempt

theorem listActiveEvents_ends (some_attempt : 0 < attempts) (outcomes : Nat → Outcome) :
    listActiveEvents attempts outcomes 0 = ended (requests attempts outcomes)
      (((outcomes (requests attempts outcomes - 1)).answer readEvents).mapError unavailable) :=
  reported_ends outcomes readEvents_sorts some_attempt

end

end BetSettlement.BetMaker
