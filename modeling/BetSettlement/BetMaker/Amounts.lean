import BetSettlement.BetMaker.Bets

/-!
# The amount of a bet

`BetCreate` checks the digits of what the client sent and rounds it to cents. `place_bet` rounds it
once more, and the column holds ten whole digits.
-/

namespace BetSettlement.BetMaker
open Python

section
variable [Pydantic]

/-- `Field(gt=Decimal("0"), max_digits=12, decimal_places=2)`. -/
def amountAdmitted (value : Decimal) : Bool := Pydantic.admits 12 2 value

/-- `Amount`: the field's limits, then the validator that rounds what they let through. -/
def amountField (value : Decimal) : Option Decimal :=
  if amountAdmitted value then quantizeAmount value else none

structure BetCreate where
  eventId : UUID
  amount : Decimal
  deriving DecidableEq

def BetCreate.modelValidate (eventId : UUID) (amount : Decimal) : Option BetCreate :=
  (amountField amount).map fun amount => { eventId, amount }

theorem amountField_ok {value amount : Decimal} (h : amountField value = some amount) :
    amountAdmitted value = true ∧ amount = value.rescale .halfUp (-2) ∧
      digitCount amount.digits ≤ defaultContext.prec := by
  unfold amountField at h
  split at h
  · rename_i admitted
    exact ⟨admitted, Decimal.quantize_ok Decimal.inRange_cents h⟩
  · cases h

theorem amountAdmitted_positive {value : Decimal} (admitted : amountAdmitted value = true) :
    value.negative = false ∧ 0 < value.toRat := by
  obtain ⟨sign, nonzero⟩ := Decimal.positive_iff.mp ((Pydantic.admits_iff 12 2 value).mp admitted).1
  refine ⟨sign, ?_⟩
  have digits : (0 : ℚ) < value.digits := by exact_mod_cast Nat.pos_of_ne_zero nonzero
  rw [Decimal.toRat_of_nonnegative sign, Decimal.magnitude]
  positivity

theorem accepted_cents {value amount : Decimal} (h : amountField value = some amount) :
    value.magnitude / (10 : ℚ) ^ (-2 : ℤ) = 100 * value.toRat := by
  obtain ⟨admitted, -⟩ := amountField_ok h
  rw [Decimal.toRat_of_nonnegative (amountAdmitted_positive admitted).1]
  norm_num
  ring

theorem accepted_toRat {value amount : Decimal} (h : amountField value = some amount) :
    amount.toRat = amount.digits / 100 := by
  obtain ⟨admitted, rfl, -⟩ := amountField_ok h
  have sign : (value.rescale .halfUp (-2)).negative = false :=
    (Decimal.rescale_negative _ _ _).trans (amountAdmitted_positive admitted).1
  rw [Decimal.toRat_of_nonnegative sign, Decimal.magnitude, Decimal.rescale_exponent]
  norm_num
  ring

/-- The second pass of `quantize_amount` changes nothing. -/
theorem quantizeAmount_again {value amount : Decimal} (h : amountField value = some amount) :
    quantizeAmount amount = some amount := by
  obtain ⟨-, same, fits⟩ := amountField_ok h
  have exponent : amount.exponent = -2 := same ▸ Decimal.rescale_exponent _ _ _
  have kept : amount.quantize defaultContext amount.exponent .halfUp = some amount :=
    Decimal.quantize_self fits (by rw [exponent]; exact Decimal.inRange_cents)
  rw [exponent] at kept
  exact kept

/-- What the column takes of the accepted amounts. -/
theorem fitsNumeric_iff {value amount : Decimal} (h : amountField value = some amount) :
    fitsNumeric amount = true ↔ value.toRat < 9999999999.995 := by
  have cents := accepted_cents h
  obtain ⟨-, rfl, -⟩ := amountField_ok h
  rw [fitsNumeric, decide_eq_true_iff, Decimal.rescale_digits_lt, cents]
  push_cast
  constructor <;> intro below <;> norm_num at below ⊢ <;> linarith

theorem create_accepted {value amount : Decimal} (h : amountField value = some amount) (id eventId : UUID)
    (now : Instant) :
    Bet.create id eventId amount now = if fitsNumeric amount then
      some { id, eventId, amount, status := .pending, createdAt := now, updatedAt := now, settledAt := none,
             settledVia := none }
    else none := by
  simp only [Bet.create, quantizeAmount_again h]

/-- A whole number of cents. -/
def WholeCents (value : Decimal) : Prop := ∃ n : Nat, 100 * value.toRat = n

/-- The row that `place_bet` inserts for an accepted amount holds what the client sent. -/
structure StoredExactly (value : Decimal) (bet : Bet) : Prop where
  equal : bet.amount.toRat = value.toRat
  positive : 0 < bet.amount.toRat
  below : bet.amount.toRat < 10 ^ 10
  returned : (BetRead.modelValidate bet).amount.toRat = value.toRat

theorem wholeCents_stored {value amount : Decimal} (h : amountField value = some amount) (whole : WholeCents value) :
    fitsNumeric amount = true ∧ amount.toRat = value.toRat := by
  have cents := accepted_cents h
  have written := accepted_toRat h
  obtain ⟨admitted, rfl, -⟩ := amountField_ok h
  obtain ⟨n, scaled⟩ := whole
  have digits := Decimal.rescale_whole (cents.trans scaled)
  have below : value.magnitude < (10 : ℚ) ^ (12 - 2) := Decimal.admitted_magnitude_lt admitted
  rw [← Decimal.toRat_of_nonnegative (amountAdmitted_positive admitted).1] at below
  constructor
  · have small : (n : ℚ) < 10 ^ 12 := by
      rw [← scaled]
      norm_num at below ⊢
      linarith
    rw [fitsNumeric, decide_eq_true_iff, digits]
    exact_mod_cast small
  · rw [written, digits, ← scaled]
    ring

/-- An accepted amount is stored as it is exactly when it has no digits below the cents. -/
theorem stored_exactly_iff {eventId : UUID} {value : Decimal} {create : BetCreate}
    (accepted : BetCreate.modelValidate eventId value = some create) (id : UUID) (now : Instant) :
    (∃ bet, Bet.create id create.eventId create.amount now = some bet ∧ StoredExactly value bet) ↔
      WholeCents value := by
  obtain ⟨amount, field, rfl⟩ := Option.map_eq_some_iff.mp accepted
  rw [create_accepted field]
  constructor
  · rintro ⟨bet, built, exactly⟩
    split at built
    · obtain rfl := Option.some.inj built
      have equal : amount.toRat = value.toRat := exactly.equal
      refine ⟨amount.digits, ?_⟩
      rw [← equal, accepted_toRat field]
      ring
    · cases built
  · intro whole
    obtain ⟨fits, equal⟩ := wholeCents_stored field whole
    obtain ⟨admitted, -⟩ := amountField_ok field
    obtain ⟨sign, positive⟩ := amountAdmitted_positive admitted
    have below : value.magnitude < (10 : ℚ) ^ (12 - 2) := Decimal.admitted_magnitude_lt admitted
    rw [← Decimal.toRat_of_nonnegative sign] at below
    rw [if_pos fits]
    exact ⟨_, rfl, equal, equal.symm ▸ positive, equal.symm ▸ below, equal⟩

/-- What the decimal context holds as written is a whole number of cents once it is accepted. -/
theorem representable_wholeCents {value amount : Decimal} (h : amountField value = some amount)
    (held : Decimal.Representable defaultContext value) : WholeCents value := by
  obtain ⟨admitted, -⟩ := amountField_ok h
  obtain ⟨-, n, -, cents⟩ := Decimal.admitted_representable admitted held
  refine ⟨n, ?_⟩
  rw [← cents, Decimal.toRat_of_nonnegative (amountAdmitted_positive admitted).1]
  ring

end

/-- Ten nines before the point and nineteen after it: more than the 28 digits that `normalize` keeps. -/
def tenBillion : Decimal := ⟨false, 99999999999999999999999999999, -19⟩

/-- One cent and a hundredth, less than the 28 digits of the context can tell. -/
def nearlyCents : Decimal := ⟨false, 100999999999999999999999999999, -29⟩

/-- The first amount is accepted and overflows the column, the second is stored as 1.01. -/
theorem tenBillion_not_stored :
    (¬ ∀ eventId value create, BetCreate.modelValidate eventId value = some create → ∀ id now,
      ∃ bet, Bet.create id create.eventId create.amount now = some bet ∧ StoredExactly value bet) ∧
    BetCreate.modelValidate 7 tenBillion = some ⟨7, ⟨false, 1000000000000, -2⟩⟩ ∧
    Bet.create 100 7 ⟨false, 1000000000000, -2⟩ 0 = none ∧
    BetCreate.modelValidate 7 nearlyCents = some ⟨7, ⟨false, 101, -2⟩⟩ ∧
    Bet.create 100 7 ⟨false, 101, -2⟩ 0 = some ⟨100, 7, ⟨false, 101, -2⟩, .pending, 0, 0, none, none⟩ := by
  have accepted : BetCreate.modelValidate 7 tenBillion = some ⟨7, ⟨false, 1000000000000, -2⟩⟩ := by decide
  have overflows : Bet.create 100 7 ⟨false, 1000000000000, -2⟩ 0 = none := by decide
  refine ⟨?_, accepted, overflows, by decide, by decide⟩
  intro stored
  obtain ⟨bet, built, -⟩ := stored 7 tenBillion _ accepted 100 0
  cases overflows.symm.trans built

theorem stored_exactly_iff_tenCents :
    ∃ bet, Bet.create 100 7 ⟨false, 10, -2⟩ 0 = some bet ∧ StoredExactly ⟨false, 1, -1⟩ bet := by
  have accepted : BetCreate.modelValidate 7 ⟨false, 1, -1⟩ = some ⟨7, ⟨false, 10, -2⟩⟩ := by decide
  have whole : WholeCents ⟨false, 1, -1⟩ := ⟨10, by norm_num [Decimal.toRat]⟩
  exact (stored_exactly_iff accepted 100 0).mpr whole

end BetSettlement.BetMaker
