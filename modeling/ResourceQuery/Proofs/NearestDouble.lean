import Mathlib.Algebra.Order.Field.Rat
import Mathlib.Algebra.Order.Field.Power
import Mathlib.Data.Rat.Cast.Order
import Mathlib.Tactic.FieldSimp
import Mathlib.Tactic.Linarith
import Mathlib.Tactic.NormNum
import Mathlib.Tactic.Positivity
import Mathlib.Tactic.Ring
import ResourceQuery.Number.Binary64

/-! Rounding to floating-point numbers, as a statement about rational numbers. A double is a whole
number of at most 53 bits times a power of two in range. What a decimal is rounded to is a double,
and no double is nearer to the decimal (`ofDecimal_nearest`); so a decimal that is a double is kept
as it is (`nearest_double`). -/

namespace ResourceQuery.NearestDouble
open Number Number.Binary64

/-! ## Rounding to multiples of a step -/

variable {step : Nat}

theorem roundHalfEven_le (numerator step : Nat) :
    roundHalfEven numerator step ≤ numerator / step + 1 := by
  unfold roundHalfEven
  dsimp only
  split
  · omega
  · split <;> omega

/-- The chosen multiple is at most half a step away. -/
theorem roundHalfEven_close (numerator : Nat) (positive : 0 < step) :
    2 * |(numerator : ℤ) - step * roundHalfEven numerator step| ≤ step := by
  have parts : step * (numerator / step) + numerator % step = numerator :=
    Nat.div_add_mod numerator step
  have small : numerator % step < step := Nat.mod_lt numerator positive
  have above : step * (numerator / step + 1) = step * (numerator / step) + step :=
    Nat.mul_succ ..
  have close : 2 * numerator ≤ 2 * (step * roundHalfEven numerator step) + step ∧
      2 * (step * roundHalfEven numerator step) ≤ 2 * numerator + step := by
    unfold roundHalfEven
    dsimp only
    split
    · omega
    · split
      · omega
      · rcases Nat.mod_two_eq_zero_or_one (numerator / step) with even | odd
        · rw [even, Nat.add_zero]
          omega
        · rw [odd]
          omega
  have within : |2 * ((numerator : ℤ) - step * roundHalfEven numerator step)| ≤ step := by
    rw [abs_le]
    zify at close
    constructor <;> linarith [close.1, close.2]
  rwa [abs_mul, abs_two] at within

/-- No multiple of the step is nearer than the chosen one. -/
theorem roundHalfEven_nearest (numerator : Nat) (positive : 0 < step) (other : Nat) :
    |(numerator : ℤ) - step * roundHalfEven numerator step| ≤ |(numerator : ℤ) - step * other| := by
  by_cases same : roundHalfEven numerator step = other
  · rw [same]
  have apart : (step : ℤ) ≤ |(step : ℤ) * roundHalfEven numerator step - step * other| := by
    rw [← mul_sub, abs_mul, Nat.abs_cast]
    have gap : 1 ≤ |(roundHalfEven numerator step : ℤ) - other| :=
      Int.one_le_abs (sub_ne_zero.mpr (by exact_mod_cast same))
    exact le_mul_of_one_le_right (Nat.cast_nonneg step) gap
  have close := roundHalfEven_close numerator positive
  have triangle := abs_sub_le ((step : ℤ) * roundHalfEven numerator step) numerator (step * other)
  rw [abs_sub_comm _ (numerator : ℤ)] at triangle
  linarith

/-! ## Numbers of 53 bits -/

/-- So many units are a number of at most 53 bits times a power of two. -/
def Representable (units : Nat) : Prop := ∃ bits power, bits < 2 ^ 53 ∧ units = bits * 2 ^ power

theorem twoTo_eq (power : Nat) : twoTo power = 2 ^ power := rfl

theorem gap_pos (units : Nat) : 0 < gap units := twoTo_pos _

/-- What is no multiple of the distance between neighbours lies below the power of two where numbers
that far apart begin. -/
theorem representable_cases {units : Nat} (representable : Representable units) (whole : Nat) :
    gap whole ∣ units ∨ units ≤ 2 ^ whole.log2 ∧ gap whole ∣ 2 ^ whole.log2 ∧
      2 ^ whole.log2 ≤ whole := by
  obtain ⟨bits, power, small, rfl⟩ := representable
  rw [gap, twoTo_eq]
  rcases Nat.le_total (whole.log2 - 52) power with wide | narrow
  · exact .inl (Dvd.dvd.mul_left (pow_dvd_pow 2 wide) bits)
  by_cases same : whole.log2 - 52 = power
  · exact .inl (same ▸ Dvd.intro_left bits rfl)
  have nonzero : whole ≠ 0 := by
    rintro rfl
    simp at same narrow
    omega
  refine .inr ⟨?_, pow_dvd_pow 2 (Nat.sub_le ..), Nat.log2_self_le nonzero⟩
  calc bits * 2 ^ power ≤ 2 ^ 53 * 2 ^ power := Nat.mul_le_mul_right _ small.le
    _ = 2 ^ (53 + power) := (pow_add 2 53 power).symm
    _ ≤ 2 ^ whole.log2 := Nat.pow_le_pow_right (by decide) (by omega)

variable {denominator : Nat}

/-- The rounded number of units: the multiple of the distance between neighbours that is chosen. -/
def rounded (scaled denominator : Nat) : Nat :=
  roundHalfEven scaled (denominator * gap (scaled / denominator)) * gap (scaled / denominator)

/-- No representable number of units is nearer to the quotient. -/
theorem rounded_nearest (positive : 0 < denominator) (scaled : Nat) {other : Nat}
    (representable : Representable other) :
    |(scaled : ℤ) - denominator * rounded scaled denominator| ≤
      |(scaled : ℤ) - denominator * other| := by
  have multiple (count : Nat) : |(scaled : ℤ) - denominator * rounded scaled denominator| ≤
      |(scaled : ℤ) - denominator * (gap (scaled / denominator) * count : Nat)| := by
    have nearest := roundHalfEven_nearest scaled
      (Nat.mul_pos positive (gap_pos (scaled / denominator))) count
    rw [rounded]
    push_cast at nearest ⊢
    rwa [mul_comm (roundHalfEven scaled _ : ℤ), ← mul_assoc, ← mul_assoc]
  rcases representable_cases representable (scaled / denominator) with ⟨count, rfl⟩ | below
  · exact multiple count
  obtain ⟨below, ⟨count, bound⟩, whole⟩ := below
  have under : denominator * 2 ^ (scaled / denominator).log2 ≤ scaled :=
    (Nat.mul_le_mul_left _ whole).trans (Nat.mul_div_le ..)
  have further : denominator * other ≤ denominator * 2 ^ (scaled / denominator).log2 :=
    Nat.mul_le_mul_left _ below
  refine (multiple count).trans ?_
  rw [← bound]
  zify at under further
  push_cast
  rw [abs_of_nonneg (by linarith), abs_of_nonneg (by linarith)]
  linarith

/-- Rounding gives a number of 53 bits. -/
theorem rounded_representable (scaled denominator : Nat) :
    Representable (rounded scaled denominator) := by
  have most : roundHalfEven scaled (denominator * gap (scaled / denominator)) ≤ 2 ^ 53 := by
    have next : scaled / denominator < 2 ^ ((scaled / denominator).log2 + 1) := Nat.lt_log2_self
    have bits : scaled / (denominator * gap (scaled / denominator)) < 2 ^ 53 := by
      rw [← Nat.div_div_eq_div_mul, gap, twoTo_eq, Nat.div_lt_iff_lt_mul (by positivity), ← pow_add]
      exact next.trans_le (Nat.pow_le_pow_right (by decide) (by omega))
    exact (roundHalfEven_le ..).trans bits
  rcases most.lt_or_eq with less | full
  · exact ⟨_, _, less, rfl⟩
  · refine ⟨2 ^ 52, (scaled / denominator).log2 - 52 + 1, by decide, ?_⟩
    rw [rounded, full, gap, twoTo_eq, ← pow_add, ← pow_add]
    congr 1
    omega

/-! ## Doubles -/

/-- The rational number is a double: at most 53 bits, at a place in range. -/
def IsDouble (value : ℚ) : Prop :=
  ∃ bits exponent : ℤ, |bits| < 2 ^ 53 ∧ -1074 ≤ exponent ∧ exponent ≤ 971 ∧
    value = bits * 2 ^ exponent

/-- The double is as near to the value as any. -/
structure Nearest (double value : ℚ) : Prop where
  isDouble : IsDouble double
  nearest : ∀ other, IsDouble other → |value - double| ≤ |value - other|

/-- The magnitude with its sign. -/
def signed (negative : Bool) (magnitude : ℚ) : ℚ := if negative then -magnitude else magnitude

/-- What so many units are worth. -/
def ofUnits (negative : Bool) (units : Nat) : ℚ := signed negative (units / unitsPerOne)

/-- What a decimal is worth. -/
def decimalValue (decimal : Decimal) : ℚ :=
  signed decimal.negative (decimal.digits * 10 ^ decimal.exponent)

theorem unitsPerOne_eq : (unitsPerOne : ℚ) = 2 ^ (1074 : ℤ) := by
  rw [unitsPerOne, twoTo_eq, Nat.cast_pow]
  rfl

theorem unitsPerOne_pos : 0 < unitsPerOne := twoTo_pos 1074

/-- A power of two in range is a number of units. -/
theorem power_units (power : Nat) : (2 : ℚ) ^ (power - 1074 : ℤ) = 2 ^ power / unitsPerOne := by
  rw [zpow_sub₀ two_ne_zero, zpow_natCast, unitsPerOne_eq]

/-- Below the limit the power of two can be taken in range. -/
theorem representable_bounded {units : Nat} (representable : Representable units)
    (bounded : units < unitsLimit) :
    ∃ bits power, bits < 2 ^ 53 ∧ power ≤ 2045 ∧ units = bits * 2 ^ power := by
  obtain ⟨bits, power, small, rfl⟩ := representable
  rcases Nat.le_total power 2045 with within | beyond
  · exact ⟨bits, power, small, within, rfl⟩
  have split : bits * 2 ^ power = bits * 2 ^ (power - 2045) * 2 ^ 2045 := by
    rw [mul_assoc, ← pow_add, Nat.sub_add_cancel beyond]
  refine ⟨bits * 2 ^ (power - 2045), 2045, ?_, le_rfl, split⟩
  have limit : unitsLimit = 2 ^ 53 * 2 ^ 2045 := by rw [unitsLimit, twoTo_eq, ← pow_add]
  rw [split, limit] at bounded
  exact Nat.lt_of_mul_lt_mul_right bounded

/-- Doubles are the representable numbers of units below the limit. -/
theorem isDouble_iff {value : ℚ} : IsDouble value ↔ ∃ negative units,
    Representable units ∧ units < unitsLimit ∧ value = ofUnits negative units := by
  constructor
  · rintro ⟨bits, exponent, small, low, high, rfl⟩
    obtain ⟨power, rfl⟩ : ∃ power : Nat, exponent = power - 1074 :=
      ⟨(exponent + 1074).toNat, by omega⟩
    have narrow : bits.natAbs < 2 ^ 53 := by
      zify
      exact small
    refine ⟨decide (bits < 0), bits.natAbs * 2 ^ power, ⟨_, power, narrow, rfl⟩, ?_, ?_⟩
    · calc bits.natAbs * 2 ^ power < 2 ^ 53 * 2 ^ power :=
            Nat.mul_lt_mul_of_pos_right narrow (by positivity)
        _ = 2 ^ (53 + power) := (pow_add 2 53 power).symm
        _ ≤ unitsLimit := by
          rw [unitsLimit, twoTo_eq]
          exact pow_le_pow_right₀ one_le_two (by omega)
    · rw [power_units, ofUnits, signed]
      rcases lt_or_ge bits 0 with below | above
      · have magnitude : (bits.natAbs : ℚ) = -bits := by
          rw [Nat.cast_natAbs, abs_of_neg below, Int.cast_neg]
        rw [decide_eq_true below, if_pos rfl, Nat.cast_mul, magnitude]
        push_cast
        ring
      · have magnitude : (bits.natAbs : ℚ) = bits := by
          rw [Nat.cast_natAbs, abs_of_nonneg above]
        rw [decide_eq_false above.not_gt, if_neg Bool.false_ne_true, Nat.cast_mul, magnitude]
        push_cast
        ring
  · rintro ⟨negative, units, representable, bounded, rfl⟩
    obtain ⟨bits, power, small, within, rfl⟩ := representable_bounded representable bounded
    refine ⟨if negative then -bits else bits, power - 1074, ?_, by omega, by omega, ?_⟩
    · cases negative
      · rw [if_neg Bool.false_ne_true, Nat.abs_cast]
        exact_mod_cast small
      · rw [if_pos rfl, abs_neg, Nat.abs_cast]
        exact_mod_cast small
    · rw [power_units, ofUnits, signed]
      cases negative
      · rw [if_neg Bool.false_ne_true, if_neg Bool.false_ne_true]
        push_cast
        ring
      · rw [if_pos rfl, if_pos rfl]
        push_cast
        ring

/-- What is nearest among the representable numbers of units is nearest among the doubles: one of
the other sign is no nearer than its opposite. -/
theorem nearest_of_units {negative : Bool} {units : Nat} {magnitude : ℚ} (natural : 0 ≤ magnitude)
    (representable : Representable units) (bounded : units < unitsLimit)
    (nearest : ∀ other, Representable other →
      |magnitude - units / unitsPerOne| ≤ |magnitude - other / unitsPerOne|) :
    Nearest (ofUnits negative units) (signed negative magnitude) := by
  refine ⟨isDouble_iff.mpr ⟨negative, units, representable, bounded, rfl⟩, fun other double => ?_⟩
  obtain ⟨negative', units', representable', -, rfl⟩ := isDouble_iff.mp double
  have positive : (0 : ℚ) ≤ units' / unitsPerOne :=
    div_nonneg (Nat.cast_nonneg _) (Nat.cast_nonneg _)
  have same : |signed negative magnitude - ofUnits negative units| =
      |magnitude - units / unitsPerOne| := by
    cases negative
    · rfl
    · exact (congrArg abs (neg_sub_neg ..)).trans (abs_sub_comm ..)
  have opposite : |magnitude - units' / unitsPerOne| ≤ |magnitude + units' / unitsPerOne| := by
    rw [abs_le, abs_of_nonneg (add_nonneg natural positive)]
    constructor <;> linarith
  rw [same]
  refine (nearest units' representable').trans ?_
  rw [ofUnits]
  cases negative <;> cases negative'
  · exact le_rfl
  · exact opposite.trans_eq (congrArg abs (sub_neg_eq_add ..).symm)
  · exact opposite.trans_eq ((abs_neg _).symm.trans (congrArg abs (neg_add' ..)))
  · exact ((abs_sub_comm ..).trans (congrArg abs (neg_sub_neg ..).symm)).le

/-! ## Rounding -/

variable {negative negative' : Bool} {units : Nat}

theorem ofQuotient_units {numerator denominator : Nat} (finite :
    ofQuotient negative numerator denominator = .finite negative' units) :
    negative' = negative ∧ units = rounded (numerator * unitsPerOne) denominator ∧
      units < unitsLimit := by
  unfold ofQuotient at finite
  dsimp only at finite
  split at finite
  · rename_i bounded
    cases finite
    exact ⟨rfl, rfl, bounded⟩
  · cases finite

/-- The distance of two quotients over their common denominator. -/
theorem quotient_distance {denominator one : Nat} (positive : 0 < denominator) (unit : 0 < one)
    (numerator units : Nat) : |(numerator : ℚ) / denominator - units / one| =
      (|((numerator * one : Nat) : ℤ) - denominator * units| : ℤ) / (denominator * one) := by
  have left : (0 : ℚ) < denominator := Nat.cast_pos.mpr positive
  have right : (0 : ℚ) < one := Nat.cast_pos.mpr unit
  have common : (numerator : ℚ) / denominator - units / one =
      (numerator * one - denominator * units) / (denominator * one) :=
    div_sub_div _ _ left.ne' right.ne'
  rw [common, abs_div, abs_of_pos (mul_pos left right)]
  push_cast
  rfl

/-- A quotient is rounded to the nearest double. -/
theorem ofQuotient_nearest {numerator denominator : Nat} (positive : 0 < denominator) (finite :
    ofQuotient negative numerator denominator = .finite negative' units) :
    Nearest (ofUnits negative' units) (signed negative (numerator / denominator)) := by
  obtain ⟨rfl, rfl, bounded⟩ := ofQuotient_units finite
  have natural : (0 : ℚ) ≤ numerator / denominator :=
    div_nonneg (Nat.cast_nonneg _) (Nat.cast_nonneg _)
  refine nearest_of_units natural (rounded_representable ..) bounded fun other representable => ?_
  have nearest := rounded_nearest positive (numerator * unitsPerOne) representable
  rw [quotient_distance positive unitsPerOne_pos, quotient_distance positive unitsPerOne_pos]
  refine div_le_div_of_nonneg_right (Int.cast_le.mpr nearest) ?_
  exact mul_nonneg (Nat.cast_nonneg _) (Nat.cast_nonneg _)

theorem tenTo_cast (power : Nat) : (tenTo power : ℚ) = 10 ^ power := by
  rw [show tenTo power = 10 ^ power from rfl, Nat.cast_pow, Nat.cast_ofNat]

theorem eight_ten (power : Nat) : 2 ^ (3 * power) ≤ 10 ^ power :=
  (pow_mul 2 3 power).trans_le (Nat.pow_le_pow_left (by decide) power)

/-- A number of so many bits has at most a third as many digits, and one. -/
theorem lt_ten_pow (digits : Nat) : digits < 10 ^ (digits.log2 / 3 + 1) :=
  calc digits < 2 ^ (digits.log2 + 1) := Nat.lt_log2_self
    _ ≤ 2 ^ (3 * (digits.log2 / 3 + 1)) := pow_le_pow_right₀ one_le_two (by omega)
    _ ≤ 10 ^ (digits.log2 / 3 + 1) := eight_ten _

/-- The magnitude is not even half the smallest positive double. -/
theorem tiny_magnitude {digits : Nat} {exponent : ℤ}
    (tiny : exponent + (digits.log2 / 3 + 1 : Nat) < -400) :
    2 * ((digits : ℚ) * 10 ^ exponent) ≤ 1 / unitsPerOne := by
  have small : (digits : ℚ) * 10 ^ exponent ≤ 10 ^ (-401 : ℤ) := by
    have within : (digits : ℚ) ≤ 10 ^ ((digits.log2 / 3 + 1 : Nat) : ℤ) := by
      rw [zpow_natCast]
      exact_mod_cast (lt_ten_pow digits).le
    calc (digits : ℚ) * 10 ^ exponent
        ≤ 10 ^ ((digits.log2 / 3 + 1 : Nat) : ℤ) * 10 ^ exponent :=
          mul_le_mul_of_nonneg_right within (by positivity)
      _ = 10 ^ (((digits.log2 / 3 + 1 : Nat) : ℤ) + exponent) := (zpow_add₀ (by norm_num) ..).symm
      _ ≤ 10 ^ (-401 : ℤ) := zpow_le_zpow_right₀ (by norm_num) (by omega)
  have far : 2 * unitsPerOne ≤ 10 ^ 401 :=
    calc 2 * unitsPerOne = 2 ^ 1 * 2 ^ 1074 := by rw [unitsPerOne, twoTo_eq, pow_one]
      _ = 2 ^ (1 + 1074) := (pow_add ..).symm
      _ ≤ 2 ^ (3 * 401) := pow_le_pow_right₀ one_le_two (by decide)
      _ ≤ 10 ^ 401 := eight_ten 401
  have far' : (2 : ℚ) * unitsPerOne ≤ 10 ^ (401 : ℤ) := by
    rw [zpow_ofNat]
    exact_mod_cast far
  have positive : (0 : ℚ) < unitsPerOne := Nat.cast_pos.mpr unitsPerOne_pos
  rw [le_div_iff₀ positive]
  calc 2 * ((digits : ℚ) * 10 ^ exponent) * unitsPerOne
      = (digits : ℚ) * 10 ^ exponent * (2 * unitsPerOne) := by ring
    _ ≤ 10 ^ (-401 : ℤ) * 10 ^ (401 : ℤ) :=
        mul_le_mul small far' (mul_pos two_pos positive).le (by positivity)
    _ = 1 := zpow_neg_mul_zpow_self 401 (by norm_num)

/-- Such a magnitude is nearer to zero than to any other double. -/
theorem tiny_nearest {magnitude : ℚ} (natural : 0 ≤ magnitude)
    (tiny : 2 * magnitude ≤ 1 / unitsPerOne) :
    Nearest (ofUnits negative 0) (signed negative magnitude) := by
  refine nearest_of_units natural ⟨0, 0, by decide, by decide⟩ (twoTo_pos _) fun other _ => ?_
  rw [Nat.cast_zero, zero_div, sub_zero, abs_of_nonneg natural]
  rcases Nat.eq_zero_or_pos other with rfl | positive
  · rw [Nat.cast_zero, zero_div, sub_zero]
    exact le_abs_self magnitude
  · have unit : (1 : ℚ) / unitsPerOne ≤ other / unitsPerOne :=
      div_le_div_of_nonneg_right (by exact_mod_cast positive) (Nat.cast_nonneg _)
    rw [abs_sub_comm]
    exact (by linarith : magnitude ≤ other / unitsPerOne - magnitude).trans (le_abs_self _)

/-- **A decimal is rounded to the nearest double.** -/
theorem ofDecimal_nearest {decimal : Decimal}
    (finite : ofDecimal decimal = .finite negative units) :
    Nearest (ofUnits negative units) (decimalValue decimal) := by
  obtain ⟨sign, digits, exponent⟩ := decimal
  unfold ofDecimal at finite
  dsimp only at finite
  rw [decimalValue]
  split at finite
  · rename_i zero
    cases finite
    have half : (0 : ℚ) ≤ 1 / unitsPerOne := div_nonneg zero_le_one (Nat.cast_nonneg _)
    rw [zero, Nat.cast_zero, zero_mul]
    exact tiny_nearest le_rfl (by rw [mul_zero]; exact half)
  split at finite
  · cases finite
  split at finite
  · rename_i tiny
    cases finite
    exact tiny_nearest (by positivity) (tiny_magnitude tiny)
  split at finite
  · rename_i power
    have nearest := ofQuotient_nearest one_pos finite
    rwa [Nat.cast_one, div_one, Nat.cast_mul, tenTo_cast] at nearest
  · rename_i power
    have nearest := ofQuotient_nearest (tenTo_pos _) finite
    rwa [tenTo_cast, div_eq_mul_inv, ← zpow_negSucc] at nearest

theorem nearest_double {double value : ℚ} (nearest : Nearest double value) :
    double = value ↔ IsDouble value := by
  constructor
  · rintro rfl
    exact nearest.isDouble
  · intro isDouble
    have none := nearest.nearest value isDouble
    rw [sub_self, abs_zero, abs_nonpos_iff, sub_eq_zero] at none
    exact none.symm

end ResourceQuery.NearestDouble
