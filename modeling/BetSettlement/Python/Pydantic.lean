import BetSettlement.Python.Decimal

/-! pydantic's check of a Decimal field declared with `gt=0`, `max_digits` and `decimal_places`. -/

namespace BetSettlement.Python

namespace Decimal

def decimals (d : Decimal) : Nat := (-d.exponent).toNat

/-- A positive exponent adds trailing zeros, a small value adds leading ones. -/
def totalDigits (d : Decimal) : Nat :=
  if 0 ≤ d.exponent then digitCount d.digits + d.exponent.toNat
  else max (digitCount d.digits) d.decimals

def wholeDigits (d : Decimal) : Nat := d.totalDigits - d.decimals

/-- A limit rejects only what exceeds it both as written and in normal form. -/
def Within (count : Decimal → Nat) (limit : Nat) (d : Decimal) : Prop :=
  count d ≤ limit ∨ count ((d.normalize defaultContext).getD d) ≤ limit

instance (count : Decimal → Nat) (limit : Nat) (d : Decimal) : Decidable (Within count limit d) :=
  inferInstanceAs (Decidable (_ ∨ _))

end Decimal

/-- The validator is a library's, so the services are modelled over any that checks what is documented. -/
class Pydantic where
  admits (maxDigits decimalPlaces : Nat) (value : Decimal) : Bool
  admits_iff : ∀ maxDigits decimalPlaces value, admits maxDigits decimalPlaces value = true ↔
    value.positive = true ∧ value.Within Decimal.totalDigits maxDigits ∧
      value.Within Decimal.decimals decimalPlaces ∧
      value.Within Decimal.wholeDigits (maxDigits - decimalPlaces)

instance : Pydantic where
  admits maxDigits decimalPlaces value := decide (value.positive = true ∧
    value.Within Decimal.totalDigits maxDigits ∧ value.Within Decimal.decimals decimalPlaces ∧
    value.Within Decimal.wholeDigits (maxDigits - decimalPlaces))
  admits_iff _ _ _ := decide_eq_true_iff

namespace Decimal

theorem magnitude_lt_of_wholeDigits {d : Decimal} {k : Nat} (small : d.wholeDigits ≤ k) :
    d.magnitude < (10 : ℚ) ^ k := by
  have width := lt_pow_digitCount d.digits
  unfold wholeDigits totalDigits decimals at small
  unfold magnitude
  by_cases whole : 0 ≤ d.exponent
  · obtain ⟨e, he⟩ := Int.eq_ofNat_of_zero_le whole
    have bound : digitCount d.digits + e ≤ k := by
      simp only [he, Int.natCast_nonneg, if_true, Int.toNat_natCast] at small
      omega
    have digits : (d.digits : ℚ) * (10 : ℚ) ^ e < (10 : ℚ) ^ (digitCount d.digits + e) := by
      rw [pow_add]
      gcongr
      exact_mod_cast width
    rw [he, zpow_natCast]
    exact digits.trans_le (pow_le_pow_right₀ (by norm_num) bound)
  · obtain ⟨x, hx⟩ : ∃ x : Nat, d.exponent = -(x : Int) := ⟨(-d.exponent).toNat, by omega⟩
    have bound : digitCount d.digits ≤ k + x := by
      rw [if_neg whole, hx] at small
      simp only [neg_neg, Int.toNat_natCast] at small
      omega
    have digits : (d.digits : ℚ) < (10 : ℚ) ^ (k + x) := by
      exact_mod_cast width.trans_le (Nat.pow_le_pow_right (by decide) bound)
    rw [hx, zpow_neg, zpow_natCast, ← div_eq_mul_inv, div_lt_iff₀ (by positivity), ← pow_add]
    exact digits

theorem magnitude_of_decimals {d : Decimal} {places : Nat} (few : d.decimals ≤ places) :
    ∃ n : Nat, d.magnitude * (10 : ℚ) ^ places = n := by
  obtain ⟨k, hk⟩ : ∃ k : Nat, d.exponent + places = k := by
    unfold decimals at few
    exact ⟨(d.exponent + places).toNat, by omega⟩
  refine ⟨d.digits * 10 ^ k, ?_⟩
  rw [magnitude, mul_assoc, ← zpow_natCast, ← zpow_add₀ (by norm_num), hk]
  push_cast
  rw [zpow_natCast]

variable [Pydantic]

/-- Rounding to 28 digits does not take a value below the limit on the whole digits. -/
theorem admitted_magnitude_lt {d : Decimal} {maxDigits places : Nat}
    (admitted : Pydantic.admits maxDigits places d = true) : d.magnitude < (10 : ℚ) ^ (maxDigits - places) := by
  obtain ⟨positive, -, -, whole⟩ := (Pydantic.admits_iff maxDigits places d).mp admitted
  have nonzero := (positive_iff.mp positive).2
  rcases whole with asWritten | normal
  · exact magnitude_lt_of_wholeDigits asWritten
  · cases found : d.normalize defaultContext with
    | none =>
      rw [found, Option.getD_none] at normal
      exact magnitude_lt_of_wholeDigits normal
    | some n =>
      rw [found, Option.getD_some] at normal
      have below := magnitude_lt_of_wholeDigits normal
      by_contra large
      rw [not_lt] at large
      have reaches : ((maxDigits - places : Nat) : Int) < d.adjusted + 1 := by
        have power := large.trans_lt (magnitude_lt_pow_adjusted d)
        rw [← zpow_natCast] at power
        exact (zpow_lt_zpow_iff_right₀ (by norm_num)).mp power
      obtain ⟨r, fixed, same⟩ := Option.map_eq_some_iff.mp found
      have kept := pow_adjusted_le_fix nonzero (by decide) (by simp only [defaultContext]; omega) fixed
      have digits : r.digits ≠ 0 := by
        intro zero
        have none_left : r.magnitude = 0 := by simp [magnitude, zero]
        have power : (0 : ℚ) < (10 : ℚ) ^ d.adjusted := by positivity
        linarith
      rw [if_neg digits] at same
      have value : n.magnitude = r.magnitude := by
        rw [← same]
        exact (stripZeros_spec _ _ _).1
      have above : (10 : ℚ) ^ (maxDigits - places) ≤ (10 : ℚ) ^ d.adjusted := by
        rw [← zpow_natCast]
        exact zpow_le_zpow_right₀ (by norm_num) (by omega)
      linarith

/-- Within the context's precision the other limits speak of the value itself too. -/
theorem admitted_representable {d : Decimal} {maxDigits places : Nat}
    (admitted : Pydantic.admits maxDigits places d = true) (exact_ : Representable defaultContext d) :
    d.magnitude < (10 : ℚ) ^ (maxDigits - places) ∧
      ∃ n : Nat, n ≠ 0 ∧ d.magnitude * (10 : ℚ) ^ places = n := by
  obtain ⟨-, -, few, -⟩ := (Pydantic.admits_iff maxDigits places d).mp admitted
  obtain ⟨n, found, value, -, nonzero⟩ := normalize_representable exact_
  unfold Within at few
  rw [found, Option.getD_some] at few
  refine ⟨admitted_magnitude_lt admitted, ?_⟩
  have units : ∃ k : Nat, d.magnitude * (10 : ℚ) ^ places = k := by
    rcases few with asWritten | normal
    · exact magnitude_of_decimals asWritten
    · rw [← value]
      exact magnitude_of_decimals normal
  obtain ⟨k, scaled⟩ := units
  refine ⟨k, ?_, scaled⟩
  rintro rfl
  have digits : (d.digits : ℚ) ≠ 0 := by exact_mod_cast exact_.1
  have positive : d.magnitude * (10 : ℚ) ^ places ≠ 0 := by
    unfold magnitude
    positivity
  exact positive (by simpa using scaled)

/-- A value written with exactly `places` decimals is admitted when its digits fit. -/
theorem admits_quantized {d : Decimal} {maxDigits places : Nat} (written : d.exponent = -(places : Int))
    (some_whole : places < maxDigits) (fits : digitCount d.digits ≤ defaultContext.prec)
    (range : InRange d.exponent) :
    Pydantic.admits maxDigits places d = true ↔
      d.negative = false ∧ d.digits ≠ 0 ∧ d.digits < 10 ^ maxDigits := by
  have places' : d.decimals = places := by simp [decimals, written]
  have total : d.totalDigits = max (digitCount d.digits) places := by
    have counted := digitCount_pos d.digits
    unfold totalDigits
    split
    · have none : places = 0 := by omega
      simp [written, none]
    · rw [places']
  rw [Pydantic.admits_iff, positive_iff, ← digitCount_le_iff (by omega)]
  constructor
  · rintro ⟨⟨sign, nonzero⟩, -, -, whole⟩
    refine ⟨sign, nonzero, ?_⟩
    rcases whole with asWritten | normal
    · simp only [wholeDigits, total, places'] at asWritten
      omega
    · obtain ⟨n, found, value, -, -⟩ := normalize_representable (representable_of_fits nonzero fits range)
      rw [found, Option.getD_some] at normal
      have below := magnitude_lt_of_wholeDigits normal
      rw [value, magnitude, written, zpow_neg, zpow_natCast, ← div_eq_mul_inv,
        div_lt_iff₀ (by positivity), ← pow_add, Nat.sub_add_cancel some_whole.le] at below
      exact (digitCount_le_iff (by omega)).mpr (by exact_mod_cast below)
  · rintro ⟨sign, nonzero, count⟩
    refine ⟨⟨sign, nonzero⟩, Or.inl ?_, Or.inl places'.le, Or.inl ?_⟩
    · rw [total]
      omega
    · simp only [wholeDigits, total, places']
      omega

end Decimal

end BetSettlement.Python
