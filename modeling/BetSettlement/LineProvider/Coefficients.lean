import BetSettlement.LineProvider.Publication

/-!
# Validating a coefficient twice

The fields check the digits of what a client sent and only then round it to two places.
What comes out is checked again by every later model.
-/

namespace BetSettlement.LineProvider
open Python Machine

section
variable [Pydantic]

/-- Every model that meets the value later takes it, and leaves it as it is. -/
structure Revalidates (value : Decimal) : Prop where
  event : ∀ eventId deadline state, Event.create eventId value deadline state =
    some { eventId, coefficient := value, deadline, state }
  read : ∀ event : Event, event.coefficient = value → EventRead.modelValidate event =
    some { eventId := event.eventId, coefficient := value, deadline := event.deadline, state := event.state }
  message : ∀ eventId newState occurredAt correlationId, ∃ message,
    EventFinishedMessage.create eventId newState value occurredAt correlationId = some message ∧
      message.coefficient = value

/-- The values that round to a coefficient from 0.01 to 999999.99. -/
def RoundsInside (value : Decimal) : Prop := 1 / 200 ≤ value.toRat ∧ value.toRat < 999999.995

theorem coefficientField_ok {value quantized : Decimal} (h : coefficientField value = some quantized) :
    value.negative = false ∧ quantized = value.rescale .halfUp (-2) ∧
      digitCount quantized.digits ≤ defaultContext.prec := by
  unfold coefficientField at h
  split at h
  · rename_i admitted
    obtain ⟨positive, -⟩ := (Pydantic.admits_iff 8 2 value).mp admitted
    exact ⟨(Decimal.positive_iff.mp positive).1, Decimal.quantize_ok Decimal.inRange_cents h⟩
  · cases h

theorem quantized_admitted {value quantized : Decimal} (h : coefficientField value = some quantized) :
    coefficientAdmitted quantized = true ↔ quantized.digits ≠ 0 ∧ quantized.digits < 10 ^ 8 := by
  obtain ⟨sign, rfl, fits⟩ := coefficientField_ok h
  have exponent : (value.rescale .halfUp (-2)).exponent = -2 := Decimal.rescale_exponent _ _ _
  have range : Decimal.InRange (value.rescale .halfUp (-2)).exponent := by
    rw [exponent]
    exact Decimal.inRange_cents
  have limits : Pydantic.admits 8 2 (value.rescale .halfUp (-2)) = true ↔ _ :=
    Decimal.admits_quantized exponent (by decide) fits range
  rw [coefficientAdmitted, limits, Decimal.rescale_negative]
  simp [sign]

/-- The bounds on the digits, as bounds on the value that was rounded. -/
theorem digits_bounds {value quantized : Decimal} (h : coefficientField value = some quantized) :
    (quantized.digits ≠ 0 ∧ quantized.digits < 10 ^ 8) ↔ RoundsInside value := by
  obtain ⟨sign, rfl, -⟩ := coefficientField_ok h
  have cents : value.magnitude / (10 : ℚ) ^ (-2 : ℤ) = 100 * value.toRat := by
    rw [Decimal.toRat_of_nonnegative sign]
    norm_num
    ring
  have nonzero : (value.rescale .halfUp (-2)).digits ≠ 0 ↔ ¬ (value.rescale .halfUp (-2)).digits < 1 := by omega
  rw [nonzero, Decimal.rescale_digits_lt, Decimal.rescale_digits_lt, cents, not_lt]
  unfold RoundsInside
  constructor
  · rintro ⟨least, below⟩
    constructor <;> norm_num at least below ⊢ <;> linarith
  · rintro ⟨least, below⟩
    constructor <;> norm_num at least below ⊢ <;> linarith

theorem revalidates_iff {value quantized : Decimal} (h : coefficientField value = some quantized) :
    Revalidates quantized ↔ RoundsInside value := by
  rw [← digits_bounds h, ← quantized_admitted h]
  constructor
  · intro revalidates
    obtain ⟨message, -, paid⟩ := revalidates.message 0 .finishedWin 0 ""
    exact paid ▸ message.admitted
  · intro admitted
    obtain ⟨-, same, fits⟩ := coefficientField_ok h
    have exponent : quantized.exponent = -2 := same ▸ Decimal.rescale_exponent _ _ _
    have again : coefficientField quantized = some quantized := by
      have kept : quantized.quantize defaultContext quantized.exponent .halfUp = some quantized :=
        Decimal.quantize_self fits (by rw [exponent]; exact Decimal.inRange_cents)
      rw [exponent] at kept
      rw [coefficientField, if_pos admitted]
      exact kept
    refine ⟨fun _ _ _ => ?_, fun event same => ?_, fun _ _ _ _ => ?_⟩
    · simp [Event.create, again]
    · simp [EventRead.modelValidate, same, again]
    · simp [EventFinishedMessage.create, admitted]

/-- Only a value that the decimal context cannot hold passes the limits and rounds outside them. -/
theorem representable_roundsInside {value : Decimal} (admitted : coefficientAdmitted value = true)
    (held : Decimal.Representable defaultContext value) : RoundsInside value := by
  have sign := (Decimal.positive_iff.mp ((Pydantic.admits_iff 8 2 value).mp admitted).1).1
  obtain ⟨below, n, nonzero, cents⟩ := Decimal.admitted_representable admitted held
  rw [← Decimal.toRat_of_nonnegative sign] at below cents
  have least : (1 : ℚ) ≤ n := by exact_mod_cast Nat.one_le_iff_ne_zero.mpr nonzero
  have small : (n : ℚ) < 10 ^ 8 := by
    calc (n : ℚ) = value.toRat * 10 ^ 2 := cents.symm
      _ < 10 ^ (8 - 2) * 10 ^ 2 := by gcongr
      _ = 10 ^ 8 := by norm_num
  have top : (n : ℚ) + 1 ≤ 10 ^ 8 := by exact_mod_cast (show n + 1 ≤ 10 ^ 8 by exact_mod_cast small)
  constructor <;> norm_num at cents top ⊢ <;> linarith

/-! ### The store under validated requests -/

/-- The routes pass on only what `EventCreate` and `EventUpdate` returned. -/
def Action.Validated (accepts : Decimal → Prop) : Action → Prop
  | .spawn _ (.createEvent body) => ∃ value now, accepts value ∧
      EventCreate.modelValidate body.eventId value body.deadline now = some body
  | .spawn _ (.setEventState change) => ∃ value, accepts value ∧
      EventUpdate.modelValidate value change.deadline change.newState =
        some { coefficient := change.coefficient, deadline := change.deadline, state := change.newState }
  | _ => True

def Section.Sound : Section → Prop
  | .add event => Revalidates event.coefficient
  | .update change => Revalidates change.coefficient

def Task.Sound : Task → Prop
  | .ready (.createEvent body) => Revalidates body.coefficient
  | .ready (.setEventState change) => Revalidates change.coefficient
  | .acquiring body | .waiting body | .holding body => body.Sound
  | .updated _ event _ => Revalidates event.coefficient
  | .raised error => error ≠ .validationError
  | _ => True

structure Sound (s : State) : Prop where
  stored : ∀ id event, s.data.lookup id = some event → Revalidates event.coefficient
  tasks : ∀ t, (s.tasks t).Sound

theorem validated_ready {t : TaskId} {call : Call} (h : (Action.spawn t call).Validated RoundsInside) :
    (Task.ready call).Sound := by
  cases call with
  | createEvent body =>
    obtain ⟨value, now, inside, built⟩ := h
    unfold EventCreate.modelValidate at built
    split at built
    · cases built
    · obtain ⟨quantized, field, same⟩ := Option.map_eq_some_iff.mp built
      have price : quantized = body.coefficient := congrArg EventCreate.coefficient same
      show Revalidates body.coefficient
      exact price ▸ (revalidates_iff field).mpr inside
  | setEventState change =>
    obtain ⟨value, inside, built⟩ := h
    obtain ⟨quantized, field, same⟩ := Option.map_eq_some_iff.mp built
    have price : quantized = change.coefficient := congrArg EventUpdate.coefficient same
    show Revalidates change.coefficient
    exact price ▸ (revalidates_iff field).mpr inside

theorem sound_setTask {s : State} {t : TaskId} {task : Task} (h : Sound s) (sound : task.Sound) :
    Sound (s.setTask t task) where
  stored := h.stored
  tasks u := by
    by_cases same : u = t
    · subst same
      rw [setTask_same]
      exact sound
    · rw [setTask_other same]
      exact h.tasks u

theorem sound_store {s : State} {id : UUID} {event : Event} (h : Sound s)
    (revalidates : Revalidates event.coefficient) : Sound { s with data := s.data.setItem id event } where
  stored key found present := by
    rw [Dict.lookup_setItem] at present
    split at present
    · exact Option.some.inj present ▸ revalidates
    · exact h.stored key found present
  tasks := h.tasks

theorem start_sound {s : State} {t : TaskId} {call : Call} (h : Sound s) (ready : (Task.ready call).Sound) :
    Sound (start s t call) := by
  have left : ∀ task : Task, task.Sound → Sound (s.leave t task) := fun task sound =>
    ⟨h.stored, (sound_setTask h sound).tasks⟩
  cases call with
  | createEvent body =>
    have built := Revalidates.event ready body.eventId body.deadline .new
    simp only [start, built]
    exact sound_setTask h ready
  | setEventState change =>
    simp only [start]
    split
    · exact left _ (by simp [Task.Sound])
    · split
      · exact sound_setTask h ready
      · exact left _ (by simp [Task.Sound])

theorem runSection_sound {s : State} {t : TaskId} {body : Section} (h : Sound s) (sound : body.Sound) :
    Sound (runSection s t body) := by
  have left : ∀ task : Task, task.Sound → Sound (s.release.leave t task) := fun task sound =>
    ⟨h.stored, (sound_setTask h sound).tasks⟩
  cases body with
  | add event =>
    simp only [runSection]
    split
    · exact left _ (by simp [Task.Sound])
    · exact sound_store (left (.returned event) trivial) sound
  | update change =>
    simp only [runSection]
    split
    · exact left _ (by simp [Task.Sound])
    · rename_i old found
      have price : (Task.updated change (old.modelCopy change) old.state).Sound := sound
      have moved : Sound (s.release.setTask t (.updated change (old.modelCopy change) old.state)) :=
        ⟨h.stored, (sound_setTask h price).tasks⟩
      exact sound_store moved sound

theorem afterUpdate_sound {s : State} {t : TaskId} {now : Instant} {change : StateChange} {event : Event}
    {previous : EventState} (h : Sound s) (revalidates : Revalidates event.coefficient) :
    Sound (afterUpdate s t now change event previous) := by
  have left : ∀ task : Task, task.Sound → Sound (s.leave t task) := fun task sound =>
    ⟨h.stored, (sound_setTask h sound).tasks⟩
  unfold afterUpdate
  split
  · rename_i terminal _
    split
    · obtain ⟨message, built, -⟩ := revalidates.message event.eventId terminal now change.correlationId
      rw [built]
      exact ⟨h.stored, (left (.publishing event) trivial).tasks⟩
    · exact left _ trivial
  · exact left _ trivial

theorem sound_step {s s' : State} {action : Action} (validated : action.Validated RoundsInside) (h : Sound s)
    (next : step s action = some s') : Sound s' := by
  rcases step_ok next with ⟨t, now, -, -, moved⟩ | ⟨-, moved⟩
  · have sound := h.tasks t
    unfold advance at moved
    split at moved
    · rename_i call place
      obtain rfl := Option.some.inj moved
      exact start_sound h (place ▸ sound)
    · rename_i body place
      obtain rfl := Option.some.inj moved
      rw [place] at sound
      unfold acquire
      split
      · exact ⟨h.stored, (sound_setTask h (show (Task.holding body).Sound from sound)).tasks⟩
      · exact ⟨h.stored, (sound_setTask h (show (Task.waiting body).Sound from sound)).tasks⟩
    · rename_i body place
      obtain rfl := Option.some.inj moved
      rw [place] at sound
      exact runSection_sound h sound
    · rename_i change event previous place
      obtain rfl := Option.some.inj moved
      rw [place] at sound
      exact afterUpdate_sound h sound
    · cases moved
  · cases action with
    | spawn t call =>
      simp only [schedule] at moved
      split at moved
      · obtain rfl := Option.some.inj moved
        exact sound_setTask h (validated_ready validated)
      · cases moved
    | resume t =>
      have sound := h.tasks t
      simp only [schedule] at moved
      split at moved
      · obtain rfl := Option.some.inj moved
        exact ⟨h.stored, h.tasks⟩
      · rename_i body place
        split at moved
        · obtain rfl := Option.some.inj moved
          rw [place] at sound
          exact ⟨h.stored, (sound_setTask h (show (Task.holding body).Sound from sound)).tasks⟩
        · cases moved
      · cases moved
    | publishReturns t | publishRaises t =>
      simp only [schedule] at moved
      split at moved
      · obtain rfl := Option.some.inj moved
        exact sound_setTask h (by simp [Task.Sound])
      · cases moved
    | advance now => cases moved

/-- What the routes of line-provider need of the store. -/
structure Servable (s : State) : Prop where
  stored : ∀ id event, s.data.lookup id = some event → ∃ read, EventRead.modelValidate event = some read ∧
    read.coefficient = event.coefficient
  built : ∀ t, s.tasks t ≠ .raised .validationError

/-- A validated coefficient survives every later validation exactly when it rounds inside the bounds,
and while all do, no GET and no publication fails on one. -/
theorem revalidation_closed :
    (∀ value deadline now eventId create, EventCreate.modelValidate eventId value deadline now = some create →
      (Revalidates create.coefficient ↔ RoundsInside value)) ∧
    (∀ value deadline state update, EventUpdate.modelValidate value deadline state = some update →
      (Revalidates update.coefficient ↔ RoundsInside value)) ∧
    (∀ actions s, (∀ action ∈ actions, action.Validated RoundsInside) →
      run step init actions = some s → Servable s) := by
  refine ⟨?_, ?_, ?_⟩
  · intro value deadline now eventId create h
    unfold EventCreate.modelValidate at h
    split at h
    · cases h
    · obtain ⟨quantized, field, rfl⟩ := Option.map_eq_some_iff.mp h
      exact revalidates_iff field
  · intro value deadline state update h
    obtain ⟨quantized, field, rfl⟩ := Option.map_eq_some_iff.mp h
    exact revalidates_iff field
  · intro actions s validated reached
    have start : Sound init := ⟨fun id event found => by simp [init] at found, fun t => trivial⟩
    have sound := run_invariant_of (fun s action s' => sound_step) validated start reached
    refine ⟨?_, ?_⟩
    · intro id event found
      exact ⟨_, (sound.stored id event found).read event rfl, rfl⟩
    · intro t failed
      have kept := sound.tasks t
      rw [failed] at kept
      exact kept rfl

end

/-- Twenty-three nines after the point: more than the 28 digits that `normalize` keeps. -/
def manyNines : Decimal := ⟨false, 99999999999999999999999999999, -23⟩

/-- A PUT finishes event 1 with the coefficient that `EventUpdate` made of `manyNines`. -/
def finishManyNines : List Action :=
  [.spawn 0 (.createEvent ⟨1, ⟨false, 150, -2⟩, 90⟩), .resume 0, .advance 10, .advance 10, .advance 10,
   .spawn 1 (.setEventState ⟨1, ⟨false, 100000000, -2⟩, 90, .finishedWin, "r"⟩), .resume 1, .advance 20,
   .advance 20, .advance 20, .advance 20]

/-- The PUT is accepted, then every later model rejects its coefficient: the event is terminal,
nothing was published, and every GET of it fails. -/
theorem manyNines_not_closed :
    (¬ ∀ value deadline state update, EventUpdate.modelValidate value deadline state = some update →
      Revalidates update.coefficient) ∧
    EventUpdate.modelValidate manyNines 90 .finishedWin = some ⟨⟨false, 100000000, -2⟩, 90, .finishedWin⟩ ∧
    EventRead.modelValidate ⟨1, ⟨false, 100000000, -2⟩, 90, .finishedWin⟩ = none ∧
    EventFinishedMessage.create 1 .finishedWin ⟨false, 100000000, -2⟩ 20 "r" = none ∧
    (run step init finishManyNines).map (fun s =>
      (s.data.lookup 1, s.published, s.current, decide (s.tasks 1 matches .raised .validationError))) =
      some (some ⟨1, ⟨false, 100000000, -2⟩, 90, .finishedWin⟩, [], none, true) := by
  have accepted : EventUpdate.modelValidate manyNines 90 .finishedWin =
      some ⟨⟨false, 100000000, -2⟩, 90, .finishedWin⟩ := by decide
  have refused : EventFinishedMessage.create 1 .finishedWin ⟨false, 100000000, -2⟩ 20 "r" = none := by decide
  refine ⟨?_, accepted, by decide, refused, by decide⟩
  intro closed
  obtain ⟨message, built, -⟩ := (closed _ _ _ _ accepted).message 1 .finishedWin 20 "r"
  rw [refused] at built
  cases built

/-- One event is created, and one PUT finishes it. -/
def finishOne : List Action :=
  [.spawn 0 (.createEvent ⟨1, ⟨false, 150, -2⟩, 90⟩), .resume 0, .advance 10, .advance 10, .advance 10,
   .spawn 1 (.setEventState ⟨1, ⟨false, 175, -2⟩, 90, .finishedWin, "r"⟩), .resume 1, .advance 20,
   .advance 20, .advance 20, .advance 20, .publishReturns 1]

theorem revalidation_closed_finishOne :
    (Revalidates ⟨false, 175, -2⟩ ↔ RoundsInside ⟨false, 175, -2⟩) ∧
    ∃ s, run step init finishOne = some s ∧ Servable s := by
  have inside : ∀ n : Nat, 100 ≤ n → n ≤ 200 → RoundsInside ⟨false, n, -2⟩ := by
    intro n low high
    have lowQ : (100 : ℚ) ≤ n := by exact_mod_cast low
    have highQ : (n : ℚ) ≤ 200 := by exact_mod_cast high
    constructor <;> norm_num [Decimal.toRat] <;> linarith
  obtain ⟨s, reached⟩ := Option.isSome_iff_exists.mp (show (run step init finishOne).isSome = true by decide)
  refine ⟨revalidation_closed.2.1 ⟨false, 175, -2⟩ 90 .finishedWin ⟨⟨false, 175, -2⟩, 90, .finishedWin⟩
    (by decide), s, reached, revalidation_closed.2.2 finishOne s ?_ reached⟩
  intro action member
  fin_cases member <;> first
    | trivial
    | exact ⟨⟨false, 150, -2⟩, 0, inside 150 (by decide) (by decide), by decide⟩
    | exact ⟨⟨false, 175, -2⟩, inside 175 (by decide) (by decide), by decide⟩

end BetSettlement.LineProvider
