import Mathlib.Data.Nat.Log
import Mathlib.Algebra.Order.Field.Rat
import Mathlib.Algebra.Order.Field.Power
import Mathlib.Tactic.Linarith
import Mathlib.Tactic.Positivity
import Mathlib.Tactic.NormNum
import Mathlib.Tactic.FieldSimp
import Mathlib.Tactic.Ring

/-!
# Finite decimals in the General Decimal Arithmetic

The operations follow the reference text of Python's `decimal` module: `_rescale`, `_fix`,
`normalize` and `quantize` under a context of bounded precision and exponents.
-/

namespace BetSettlement.Python

/-- `(-1) ^ negative * digits * 10 ^ exponent`. -/
structure Decimal where
  negative : Bool
  digits : Nat
  exponent : Int
  deriving DecidableEq

/-- `len(str(n))`. -/
def digitCount (n : Nat) : Nat := Nat.log 10 n + 1

inductive Rounding where
  | halfUp | halfEven
  deriving DecidableEq

/-- `n / d` rounded to an integer. -/
def roundDiv (mode : Rounding) (n d : Nat) : Nat :=
  let q := n / d
  let twice := 2 * (n % d)
  match mode with
  | .halfUp => if d ≤ twice then q + 1 else q
  | .halfEven => if d < twice ∨ (twice = d ∧ q % 2 = 1) then q + 1 else q

structure Context where
  prec : Nat
  emin : Int
  emax : Int
  rounding : Rounding

def Context.etiny (c : Context) : Int := c.emin - c.prec + 1

def Context.etop (c : Context) : Int := c.emax - c.prec + 1

/-- What `getcontext()` returns in a thread that never touched it. -/
def defaultContext : Context := ⟨28, -999999, 999999, .halfEven⟩

namespace Decimal

def toRat (d : Decimal) : ℚ := (if d.negative then -1 else 1) * d.digits * (10 : ℚ) ^ d.exponent

/-- `d > Decimal("0")`. -/
def positive (d : Decimal) : Bool := !d.negative && d.digits != 0

def adjusted (d : Decimal) : Int := digitCount d.digits + d.exponent - 1

def rescale (mode : Rounding) (d : Decimal) (target : Int) : Decimal :=
  if target ≤ d.exponent then
    { d with digits := d.digits * 10 ^ (d.exponent - target).toNat, exponent := target }
  else
    { d with digits := roundDiv mode d.digits (10 ^ (target - d.exponent).toNat), exponent := target }

/-- `none` is a raised `Overflow`: the default context traps it. -/
def fix (c : Context) (d : Decimal) : Option Decimal :=
  if d.digits = 0 then some { d with exponent := min (max d.exponent c.etiny) c.emax }
  else
    let least := digitCount d.digits + d.exponent - c.prec
    if c.etop < least then none
    else
      let target := max least c.etiny
      if target ≤ d.exponent then some d
      else
        let rounded := d.rescale c.rounding target
        if digitCount rounded.digits ≤ c.prec then some rounded
        -- the carry into one digit more leaves a zero at the end, which is dropped
        else if c.etop < target + 1 then none
        else some { rounded with digits := rounded.digits / 10, exponent := target + 1 }

def stripZeros (c : Context) : Nat → Decimal → Decimal
  | 0, d => d
  | fuel + 1, d =>
    if d.digits % 10 = 0 ∧ d.exponent < c.emax then
      stripZeros c fuel { d with digits := d.digits / 10, exponent := d.exponent + 1 }
    else d

def normalize (c : Context) (d : Decimal) : Option Decimal :=
  (d.fix c).map fun rounded =>
    if rounded.digits = 0 then { rounded with exponent := 0 }
    else rounded.stripZeros c (digitCount rounded.digits)

/-- `none` is a raised `InvalidOperation`. -/
def quantize (c : Context) (d : Decimal) (target : Int) (mode : Rounding) : Option Decimal :=
  if d.digits = 0 then { d with exponent := target }.fix c
  else if c.emax < d.adjusted ∨ c.prec < d.adjusted - target + 1 then none
  else
    let result := d.rescale mode target
    if c.emax < result.adjusted ∨ c.prec < digitCount result.digits then none else result.fix c

/-! ### Digit counts -/

theorem digitCount_le_iff {n k : Nat} (positive : k ≠ 0) : digitCount n ≤ k ↔ n < 10 ^ k :=
  ⟨fun h => Nat.lt_pow_of_log_lt (by decide) h, fun h => Nat.log_lt_of_lt_pow' positive h⟩

theorem lt_pow_digitCount (n : Nat) : n < 10 ^ digitCount n :=
  Nat.lt_pow_succ_log_self (by decide) n

theorem digitCount_pos (n : Nat) : 0 < digitCount n := Nat.succ_pos _

/-! ### Rounding -/

/-- Rounding half up is the floor of the quotient shifted by one half. -/
theorem roundDiv_halfUp {n d : Nat} (positive : 0 < d) :
    2 * d * roundDiv .halfUp n d ≤ 2 * n + d ∧ 2 * n + d < 2 * d * (roundDiv .halfUp n d + 1) := by
  have parts := Nat.div_add_mod n d
  have small := Nat.mod_lt n positive
  have scaled : 2 * d * (n / d) = 2 * (d * (n / d)) := Nat.mul_assoc 2 d _
  simp only [roundDiv]
  split
  · have up : 2 * d * (n / d + 1) = 2 * (d * (n / d)) + 2 * d := by rw [Nat.mul_succ, scaled]
    have upper : 2 * d * (n / d + 1 + 1) = 2 * (d * (n / d)) + 4 * d := by
      rw [Nat.mul_succ, up]; omega
    omega
  · have up : 2 * d * (n / d + 1) = 2 * (d * (n / d)) + 2 * d := by rw [Nat.mul_succ, scaled]
    omega

/-! ### Values -/

/-- The absolute value. -/
def magnitude (d : Decimal) : ℚ := d.digits * (10 : ℚ) ^ d.exponent

theorem toRat_of_nonnegative {d : Decimal} (sign : d.negative = false) : d.toRat = d.magnitude := by
  simp [toRat, magnitude, sign]

theorem positive_iff {d : Decimal} : d.positive = true ↔ d.negative = false ∧ d.digits ≠ 0 := by
  simp [positive]

theorem magnitude_shift (n : Nat) (e : Int) (k : Nat) :
    ((n * 10 ^ k : Nat) : ℚ) * (10 : ℚ) ^ (e - k) = n * (10 : ℚ) ^ e := by
  rw [zpow_sub₀ (by norm_num), zpow_natCast]
  push_cast
  field_simp

theorem rescale_negative (mode : Rounding) (d : Decimal) (target : Int) :
    (d.rescale mode target).negative = d.negative := by
  unfold rescale
  split <;> rfl

theorem rescale_exponent (mode : Rounding) (d : Decimal) (target : Int) :
    (d.rescale mode target).exponent = target := by
  unfold rescale
  split <;> rfl

theorem rescale_magnitude {mode : Rounding} {d : Decimal} {target : Int} (finer : target ≤ d.exponent) :
    (d.rescale mode target).magnitude = d.magnitude := by
  have shift := magnitude_shift d.digits d.exponent (d.exponent - target).toNat
  have back : d.exponent - ((d.exponent - target).toNat : Int) = target := by omega
  rw [back] at shift
  simpa only [rescale, if_pos finer, magnitude] using shift

theorem rescale_self (mode : Rounding) (d : Decimal) : d.rescale mode d.exponent = d := by
  simp [rescale]

/-- A half-up rescale is within half a unit of the last place, ties going up. -/
theorem rescale_halfUp (d : Decimal) (target : Int) :
    ((d.rescale .halfUp target).digits : ℚ) - 1 / 2 ≤ d.magnitude / (10 : ℚ) ^ target ∧
      d.magnitude / (10 : ℚ) ^ target < ((d.rescale .halfUp target).digits : ℚ) + 1 / 2 := by
  have unit : (0 : ℚ) < (10 : ℚ) ^ target := by positivity
  by_cases finer : target ≤ d.exponent
  · have same : (d.rescale .halfUp target).magnitude = d.magnitude := rescale_magnitude finer
    rw [← same, magnitude, rescale_exponent, mul_div_assoc, div_self unit.ne', mul_one]
    constructor <;> linarith
  · obtain ⟨k, hk⟩ : ∃ k : Nat, target = d.exponent + k := ⟨(target - d.exponent).toNat, by omega⟩
    have width : (target - d.exponent).toNat = k := by omega
    have scaled : d.magnitude / (10 : ℚ) ^ target = d.digits / (10 : ℚ) ^ k := by
      rw [magnitude, hk, zpow_add₀ (by norm_num), zpow_natCast]
      field_simp
    obtain ⟨low, high⟩ := roundDiv_halfUp (n := d.digits) (d := 10 ^ k) (by positivity)
    have digits : (d.rescale .halfUp target).digits = roundDiv .halfUp d.digits (10 ^ k) := by
      simp [rescale, finer, width]
    have power : (0 : ℚ) < (10 : ℚ) ^ k := by positivity
    rw [scaled, digits, le_div_iff₀ power, div_lt_iff₀ power]
    have lowQ : (2 * (10 : ℚ) ^ k * roundDiv .halfUp d.digits (10 ^ k)) ≤ 2 * d.digits + (10 : ℚ) ^ k := by
      exact_mod_cast low
    have highQ : 2 * (d.digits : ℚ) + (10 : ℚ) ^ k < 2 * (10 : ℚ) ^ k * (roundDiv .halfUp d.digits (10 ^ k) + 1) := by
      exact_mod_cast high
    constructor <;> nlinarith

/-- The rounded digits stay below a limit as long as the value is half a unit below it. -/
theorem rescale_digits_lt {d : Decimal} {target : Int} {n : Nat} :
    (d.rescale .halfUp target).digits < n ↔ d.magnitude / (10 : ℚ) ^ target < n - 1 / 2 := by
  obtain ⟨low, high⟩ := rescale_halfUp d target
  generalize (d.rescale .halfUp target).digits = digits at low high ⊢
  constructor
  · intro below
    have next : (digits : ℚ) + 1 ≤ n := by exact_mod_cast below
    linarith
  · intro below
    have small : (digits : ℚ) < n := by linarith
    exact_mod_cast small

/-- A value that has no digits below the target is only rewritten. -/
theorem rescale_whole {d : Decimal} {target : Int} {n : Nat} (whole : d.magnitude / (10 : ℚ) ^ target = n) :
    (d.rescale .halfUp target).digits = n := by
  obtain ⟨low, high⟩ := rescale_halfUp d target
  rw [whole] at low high
  generalize (d.rescale .halfUp target).digits = digits at low high ⊢
  have above : digits < n + 1 := by
    have less : (digits : ℚ) < n + 1 := by linarith
    exact_mod_cast less
  have below : n < digits + 1 := by
    have less : (n : ℚ) < digits + 1 := by linarith
    exact_mod_cast less
  omega

/-! ### The leading digit -/

theorem pow_adjusted_le {d : Decimal} (nonzero : d.digits ≠ 0) : (10 : ℚ) ^ d.adjusted ≤ d.magnitude := by
  have leading : 10 ^ (digitCount d.digits - 1) ≤ d.digits := Nat.pow_log_le_self 10 nonzero
  have count := digitCount_pos d.digits
  have split : d.adjusted = ((digitCount d.digits - 1 : Nat) : Int) + d.exponent := by
    unfold adjusted
    omega
  rw [split, zpow_add₀ (by norm_num), zpow_natCast, magnitude]
  gcongr
  exact_mod_cast leading

theorem magnitude_lt_pow_adjusted (d : Decimal) : d.magnitude < (10 : ℚ) ^ (d.adjusted + 1) := by
  have split : d.adjusted + 1 = (digitCount d.digits : Int) + d.exponent := by
    unfold adjusted
    omega
  rw [split, zpow_add₀ (by norm_num), zpow_natCast, magnitude]
  gcongr
  exact_mod_cast lt_pow_digitCount d.digits

theorem div_le_roundDiv (mode : Rounding) (n d : Nat) : n / d ≤ roundDiv mode n d := by
  cases mode <;> simp only [roundDiv] <;> split <;> omega

/-- Rounding to the precision never falls below the power of ten that the value reaches. -/
theorem pow_adjusted_le_fix {c : Context} {d r : Decimal} (nonzero : d.digits ≠ 0) (some_prec : c.prec ≠ 0)
    (normal : c.emin ≤ d.adjusted) (h : d.fix c = some r) : (10 : ℚ) ^ d.adjusted ≤ r.magnitude := by
  have least : max (digitCount d.digits + d.exponent - c.prec) c.etiny = digitCount d.digits + d.exponent - c.prec := by
    unfold adjusted at normal
    unfold Context.etiny
    omega
  have power : ∀ {n : Nat} {e : Int}, 10 ^ (c.prec - 1) ≤ n → digitCount d.digits + d.exponent - c.prec ≤ e →
      (10 : ℚ) ^ d.adjusted ≤ n * (10 : ℚ) ^ e := by
    intro n e digits above
    have split : d.adjusted = ((c.prec - 1 : Nat) : Int) + (digitCount d.digits + d.exponent - c.prec) := by
      unfold adjusted
      omega
    rw [split, zpow_add₀ (by norm_num), zpow_natCast]
    have scale : (10 : ℚ) ^ (digitCount d.digits + d.exponent - c.prec : Int) ≤ (10 : ℚ) ^ e :=
      zpow_le_zpow_right₀ (by norm_num) above
    have count : ((10 ^ (c.prec - 1) : Nat) : ℚ) ≤ n := by exact_mod_cast digits
    push_cast at count
    gcongr
  unfold fix at h
  rw [if_neg nonzero] at h
  dsimp only at h
  rw [least] at h
  split at h
  · cases h
  · split at h
    · obtain rfl := Option.some.inj h
      exact pow_adjusted_le nonzero
    · rename_i coarse
      have rounds : 10 ^ (c.prec - 1) ≤ (d.rescale c.rounding (digitCount d.digits + d.exponent - c.prec)).digits := by
        have leading : 10 ^ (digitCount d.digits - 1) ≤ d.digits := Nat.pow_log_le_self 10 nonzero
        have width : (digitCount d.digits + d.exponent - c.prec - d.exponent).toNat = digitCount d.digits - c.prec := by
          omega
        have kept : c.prec - 1 = digitCount d.digits - 1 - (digitCount d.digits - c.prec) := by omega
        simp only [rescale, if_neg coarse, width]
        refine le_trans ?_ (div_le_roundDiv _ _ _)
        rw [kept, ← Nat.pow_div (by omega) (by decide)]
        exact Nat.div_le_div_right leading
      split at h
      · obtain rfl := Option.some.inj h
        rw [magnitude, rescale_exponent]
        exact power rounds le_rfl
      · rename_i carried
        split at h
        · cases h
        · obtain rfl := Option.some.inj h
          refine power ?_ (Int.le_add_one le_rfl)
          have large : 10 ^ c.prec ≤ (d.rescale c.rounding (digitCount d.digits + d.exponent - c.prec)).digits := by
            by_contra small
            exact carried ((digitCount_le_iff some_prec).mpr (not_le.mp small))
          have tenth : 10 ^ (c.prec - 1) * 10 = 10 ^ c.prec := by
            rw [← pow_succ]
            congr 1
            omega
          change 10 ^ (c.prec - 1) ≤ _ / 10
          omega

/-! ### Operations that the context leaves exact -/

/-- The nonzero decimals a context holds as written. -/
def Representable (c : Context) (d : Decimal) : Prop :=
  d.digits ≠ 0 ∧ digitCount d.digits ≤ c.prec ∧ c.etiny ≤ d.exponent ∧
    digitCount d.digits + d.exponent - c.prec ≤ c.etop

theorem fix_representable {c : Context} {d : Decimal} (h : Representable c d) : d.fix c = some d := by
  obtain ⟨nonzero, fits, above, below⟩ := h
  have target : max (digitCount d.digits + d.exponent - c.prec) c.etiny ≤ d.exponent := by
    have fits' : (digitCount d.digits : Int) ≤ c.prec := by exact_mod_cast fits
    omega
  simp only [fix, nonzero, if_false]
  rw [if_neg (by omega), if_pos target]

theorem stripZeros_spec (c : Context) (fuel : Nat) (d : Decimal) :
    (d.stripZeros c fuel).magnitude = d.magnitude ∧ (d.stripZeros c fuel).negative = d.negative ∧
      (d.digits ≠ 0 → (d.stripZeros c fuel).digits ≠ 0) := by
  induction fuel generalizing d with
  | zero => exact ⟨rfl, rfl, id⟩
  | succ fuel ih =>
    simp only [stripZeros]
    split
    · rename_i zero
      obtain ⟨value, sign, nonzero⟩ := ih { d with digits := d.digits / 10, exponent := d.exponent + 1 }
      refine ⟨value.trans ?_, sign, fun h => nonzero (by dsimp only; omega)⟩
      have shift := magnitude_shift (d.digits / 10) (d.exponent + 1) 1
      have whole : d.digits / 10 * 10 ^ 1 = d.digits := by omega
      have back : d.exponent + 1 - ((1 : Nat) : Int) = d.exponent := by omega
      rw [whole, back] at shift
      exact shift.symm
    · exact ⟨rfl, rfl, id⟩

theorem normalize_representable {c : Context} {d : Decimal} (h : Representable c d) :
    ∃ n, d.normalize c = some n ∧ n.magnitude = d.magnitude ∧ n.negative = d.negative ∧
      n.digits ≠ 0 := by
  obtain ⟨value, sign, nonzero⟩ := stripZeros_spec c (digitCount d.digits) d
  refine ⟨_, ?_, value, sign, nonzero h.1⟩
  simp [normalize, fix_representable h, h.1]

/-- The exponents at which the default context holds every coefficient of 28 digits. -/
def InRange (e : Int) : Prop := defaultContext.etiny ≤ e ∧ e ≤ defaultContext.etop

theorem inRange_cents : InRange (-2) := by
  constructor <;> decide

theorem representable_of_fits {d : Decimal} (nonzero : d.digits ≠ 0)
    (fits : digitCount d.digits ≤ defaultContext.prec) (range : InRange d.exponent) :
    Representable defaultContext d := by
  have bound : (digitCount d.digits : Int) ≤ defaultContext.prec := by exact_mod_cast fits
  have high := range.2
  exact ⟨nonzero, fits, range.1, by omega⟩

theorem fix_fits {d : Decimal} (fits : digitCount d.digits ≤ defaultContext.prec)
    (range : InRange d.exponent) : d.fix defaultContext = some d := by
  by_cases zero : d.digits = 0
  · have kept : min (max d.exponent defaultContext.etiny) defaultContext.emax = d.exponent := by
      simp only [InRange, defaultContext, Context.etiny, Context.etop] at *
      omega
    obtain ⟨sign, digits, exponent⟩ := d
    simp only at zero kept
    simp [fix, zero, kept]
  · exact fix_representable (representable_of_fits zero fits range)

theorem rescale_zero {mode : Rounding} {d : Decimal} {target : Int} (zero : d.digits = 0) :
    d.rescale mode target = { d with exponent := target } := by
  unfold rescale
  split
  · simp [zero]
  · cases mode <;> simp [zero, roundDiv]

/-- What `quantize` returns is the rescaled value, and it fits the precision. -/
theorem quantize_ok {d q : Decimal} {target : Int} {mode : Rounding} (range : InRange target)
    (h : d.quantize defaultContext target mode = some q) :
    q = d.rescale mode target ∧ digitCount q.digits ≤ defaultContext.prec := by
  unfold quantize at h
  split at h
  · rename_i zero
    have small : digitCount d.digits ≤ defaultContext.prec := by rw [zero]; decide
    rw [fix_fits (d := { d with exponent := target }) small range] at h
    obtain rfl := Option.some.inj h
    exact ⟨(rescale_zero zero).symm, small⟩
  · split at h
    · cases h
    · dsimp only at h
      split at h
      · cases h
      · rename_i fits
        simp only [not_or, not_lt] at fits
        have small : digitCount (d.rescale mode target).digits ≤ defaultContext.prec := by
          exact_mod_cast fits.2
        rw [fix_fits small (by rw [rescale_exponent]; exact range)] at h
        obtain rfl := Option.some.inj h
        exact ⟨rfl, small⟩

/-- Quantizing a value that already has the target's exponent gives it back. -/
theorem quantize_self {d : Decimal} {mode : Rounding} (fits : digitCount d.digits ≤ defaultContext.prec)
    (range : InRange d.exponent) : d.quantize defaultContext d.exponent mode = some d := by
  have bound : (digitCount d.digits : Int) ≤ defaultContext.prec := by exact_mod_cast fits
  have below : d.adjusted ≤ defaultContext.emax := by
    simp only [InRange, adjusted, defaultContext, Context.etop] at *
    omega
  unfold quantize
  split
  · exact fix_fits fits range
  · rw [if_neg (by simp only [adjusted] at below ⊢; omega), rescale_self]
    dsimp only
    rw [if_neg (by omega), fix_fits fits range]

end Decimal

end BetSettlement.Python
