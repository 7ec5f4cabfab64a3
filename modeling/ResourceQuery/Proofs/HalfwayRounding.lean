import Mathlib.Tactic.LinearCombination
import ResourceQuery.Proofs.NearestDouble

/-! Rounding from halfway between two doubles, and past the largest of them. A value in the middle
goes to the double that is an even multiple of the distance (`ofQuotient_rounds`), and this rule
leaves no choice (`rounds_unique`). From halfway between the largest double and the next power of
two on, a quotient becomes infinite (`ofQuotient_infinite`), and below that it does not
(`ofQuotient_finite`). -/

namespace ResourceQuery.HalfwayRounding
open Number Number.Binary64 NearestDouble

/-! ## Ties -/

/-- The double that the value is rounded to: the nearest, and of two that are equally near the one
that is an even multiple of their distance. -/
structure RoundsTo (double value : ℚ) : Prop extends Nearest double value where
  even : ∀ other, IsDouble other → other ≠ double → |value - other| = |value - double| →
    ∃ count : ℤ, double = 2 * count * (other - double)

/-- A value is rounded to one double only: of two neighbours just one is an even multiple of their
distance. -/
theorem rounds_unique {double double' value : ℚ} (rounds : RoundsTo double value)
    (rounds' : RoundsTo double' value) : double = double' := by
  by_contra apart
  have near := rounds.nearest double' rounds'.isDouble
  have near' := rounds'.nearest double rounds.isDouble
  have tie := le_antisymm near' near
  obtain ⟨count, even⟩ := rounds.even double' rounds'.isDouble (Ne.symm apart) tie
  obtain ⟨count', even'⟩ := rounds'.even double rounds.isDouble apart tie.symm
  have distance : double' - double ≠ 0 := sub_ne_zero.mpr (Ne.symm apart)
  have total : (1 : ℚ) = (2 * (-count' - count) : ℤ) := by
    apply mul_right_cancel₀ distance
    push_cast
    linear_combination even' - even
  have parity : (1 : ℤ) = 2 * (-count' - count) := by exact_mod_cast total
  omega

/-- A double is rounded to itself. -/
theorem rounds_self {value : ℚ} (double : IsDouble value) : RoundsTo value value := by
  refine ⟨⟨double, fun other _ => ?_⟩, fun other _ different tie => ?_⟩
  · rw [sub_self, abs_zero]
    exact abs_nonneg _
  · rw [sub_self, abs_zero, abs_eq_zero, sub_eq_zero] at tie
    exact absurd tie.symm different

variable {step : Nat}

/-- Between two multiples of the step that are equally near the value is in the middle. -/
theorem tie_middle {numerator chosen other : Nat} (positive : 0 < step) (different : other ≠ chosen)
    (tie : |(numerator : ℤ) - step * other| = |(numerator : ℤ) - step * chosen|) :
    2 * ((numerator : ℤ) - step * chosen) = step * ((other : ℤ) - chosen) := by
  rcases abs_eq_abs.mp tie with same | opposite
  · have none : (step : ℤ) * ((other : ℤ) - chosen) = 0 := by linear_combination -same
    rcases mul_eq_zero.mp none with zero | zero
    · exact absurd (Int.natCast_eq_zero.mp zero) positive.ne'
    · exact absurd (Int.natCast_inj.mp (sub_eq_zero.mp zero)) different
  · linear_combination opposite

/-- So if one of them is at most half a step away, the other is next to it. -/
theorem middle_next {numerator chosen other : Nat} (positive : 0 < step)
    (different : other ≠ chosen) (close : 2 * |(numerator : ℤ) - step * chosen| ≤ step)
    (middle : 2 * ((numerator : ℤ) - step * chosen) = step * ((other : ℤ) - chosen)) :
    other = chosen + 1 ∨ chosen = other + 1 := by
  have bound : (step : ℤ) * |(other : ℤ) - chosen| ≤ step * 1 := by
    rw [← Nat.abs_cast step, ← abs_mul, ← middle, abs_mul, abs_two, Nat.abs_cast, mul_one]
    exact close
  have next : |(other : ℤ) - chosen| ≤ 1 :=
    le_of_mul_le_mul_left bound (by exact_mod_cast positive)
  rw [abs_le] at next
  omega

/-- Half a step away from the value only an even multiple is chosen. -/
theorem roundHalfEven_even {numerator : Nat} (positive : 0 < step)
    (halfway : 2 * numerator = 2 * (step * roundHalfEven numerator step) + step ∨
      2 * numerator + step = 2 * (step * roundHalfEven numerator step)) :
    roundHalfEven numerator step % 2 = 0 := by
  have parts : step * (numerator / step) + numerator % step = numerator :=
    Nat.div_add_mod numerator step
  have small : numerator % step < step := Nat.mod_lt numerator positive
  have above : step * (numerator / step + 1) = step * (numerator / step) + step :=
    Nat.mul_succ ..
  revert halfway
  unfold roundHalfEven
  dsimp only
  split
  · omega
  · split
    · rw [above]
      omega
    · omega

/-- Of two multiples of the step that are equally near, the chosen one is even, and the other is
next to it. -/
theorem roundHalfEven_tie {numerator : Nat} (other : Nat) (positive : 0 < step)
    (different : other ≠ roundHalfEven numerator step)
    (tie : |(numerator : ℤ) - step * other| =
      |(numerator : ℤ) - step * roundHalfEven numerator step|) :
    roundHalfEven numerator step % 2 = 0 ∧
      (other = roundHalfEven numerator step + 1 ∨ roundHalfEven numerator step = other + 1) := by
  have middle := tie_middle positive different tie
  have sides := middle_next positive different (roundHalfEven_close numerator positive) middle
  refine ⟨roundHalfEven_even positive ?_, sides⟩
  zify
  rcases sides with after | before
  · left
    rw [after] at middle
    push_cast at middle
    linear_combination middle
  · right
    rw [before] at middle ⊢
    push_cast at middle ⊢
    linear_combination middle

variable {scaled denominator other : Nat}

/-- What is as near as the rounded number of units is a multiple of the same gap. What is no such
multiple lies below the power of two where the gap begins, and so it is less near. -/
theorem tie_multiple (positive : 0 < denominator) (representable : Representable other)
    (tie : |(scaled : ℤ) - denominator * other| =
      |(scaled : ℤ) - denominator * rounded scaled denominator|) :
    gap (scaled / denominator) ∣ other := by
  rcases representable_cases representable (scaled / denominator) with within | below
  · exact within
  obtain ⟨under, divides, whole⟩ := below
  by_contra unaligned
  have less : other < 2 ^ (scaled / denominator).log2 :=
    lt_of_le_of_ne under fun same => unaligned (same ▸ divides)
  have power : Representable (2 ^ (scaled / denominator).log2) :=
    ⟨1, _, by decide, (Nat.one_mul _).symm⟩
  have nearest := rounded_nearest positive scaled power
  have reached : denominator * 2 ^ (scaled / denominator).log2 ≤ scaled :=
    (Nat.mul_le_mul_left _ whole).trans (Nat.mul_div_le ..)
  have further := Nat.mul_lt_mul_of_pos_left less positive
  zify at reached further
  push_cast at nearest
  rw [abs_of_nonneg (sub_nonneg.mpr reached)] at nearest
  rw [abs_of_nonneg (sub_nonneg.mpr (further.le.trans reached))] at tie
  linarith

/-- So the rounded number is an even multiple of the distance to it. -/
theorem rounded_tie (positive : 0 < denominator) (representable : Representable other)
    (different : other ≠ rounded scaled denominator)
    (tie : |(scaled : ℤ) - denominator * other| =
      |(scaled : ℤ) - denominator * rounded scaled denominator|) :
    ∃ count : ℤ, (rounded scaled denominator : ℤ) =
      2 * count * ((other : ℤ) - rounded scaled denominator) := by
  obtain ⟨count, rfl⟩ := tie_multiple positive representable tie
  have steps : 0 < denominator * gap (scaled / denominator) := Nat.mul_pos positive (gap_pos _)
  have units : rounded scaled denominator = gap (scaled / denominator) *
      roundHalfEven scaled (denominator * gap (scaled / denominator)) := Nat.mul_comm ..
  rw [units] at different tie ⊢
  obtain ⟨even, sides⟩ := roundHalfEven_tie count steps
    (fun same => different (congrArg _ same)) (by push_cast at tie ⊢; rwa [mul_assoc, mul_assoc])
  obtain ⟨half, twice⟩ := Nat.dvd_of_mod_eq_zero even
  rcases sides with after | before
  · refine ⟨half, ?_⟩
    rw [after, twice]
    push_cast
    ring
  · have behind : (count : ℤ) = 2 * half - 1 := by omega
    refine ⟨-half, ?_⟩
    rw [Nat.cast_mul, Nat.cast_mul, behind, twice]
    push_cast
    ring

variable {negative negative' : Bool} {units : Nat} {magnitude double value : ℚ}

theorem representable_zero : Representable 0 := ⟨0, 0, by decide, by decide⟩

theorem signed_distance (negative : Bool) (magnitude : ℚ) (units : Nat) :
    |signed negative magnitude - ofUnits negative units| =
      |magnitude - units / unitsPerOne| := by
  cases negative
  · rfl
  · exact (congrArg abs (neg_sub_neg ..)).trans (abs_sub_comm ..)

/-- A double that is as near as the nearest has the sign of the value, or is zero. -/
theorem tie_signed {other : ℚ} (natural : 0 ≤ magnitude)
    (nearest : Nearest double (signed negative magnitude)) (isDouble : IsDouble other)
    (tie : |signed negative magnitude - other| = |signed negative magnitude - double|) :
    ∃ units, Representable units ∧ other = ofUnits negative units := by
  obtain ⟨negative', units, representable, bounded, rfl⟩ := isDouble_iff.mp isDouble
  by_cases same : negative' = negative
  · exact ⟨units, representable, by rw [same]⟩
  have positive : (0 : ℚ) ≤ units / unitsPerOne :=
    div_nonneg (Nat.cast_nonneg _) (Nat.cast_nonneg _)
  have far : |signed negative magnitude - ofUnits negative' units| =
      magnitude + units / unitsPerOne := by
    rw [ofUnits]
    cases negative <;> cases negative'
    · exact absurd rfl same
    · rw [← abs_of_nonneg (add_nonneg natural positive)]
      exact congrArg abs (sub_neg_eq_add ..)
    · rw [← abs_of_nonneg (add_nonneg natural positive), ← abs_neg (magnitude + _)]
      exact congrArg abs (neg_add' ..).symm
    · exact absurd rfl same
  have zero := nearest.nearest (ofUnits negative 0)
    (isDouble_iff.mpr ⟨negative, 0, representable_zero, twoTo_pos _, rfl⟩)
  rw [signed_distance, Nat.cast_zero, zero_div, sub_zero, abs_of_nonneg natural, ← tie, far] at zero
  refine ⟨0, representable_zero, ?_⟩
  have none : (units : ℚ) / unitsPerOne = 0 := by linarith
  rw [ofUnits, ofUnits, none, Nat.cast_zero, zero_div]
  cases negative <;> cases negative' <;> simp [signed]

theorem even_quotient {chosen other : Nat} {count : ℤ}
    (even : (chosen : ℤ) = 2 * count * ((other : ℤ) - chosen)) (one : ℚ) :
    (chosen : ℚ) / one = 2 * count * (other / one - chosen / one) := by
  have multiple : (chosen : ℚ) = 2 * count * (other - chosen) := by exact_mod_cast even
  rw [← sub_div, ← mul_div_assoc, ← multiple]

/-- **A quotient is rounded to the nearest double, and from the middle to the even one.** -/
theorem ofQuotient_rounds {numerator : Nat} (positive : 0 < denominator) (finite :
    ofQuotient negative numerator denominator = .finite negative' units) :
    RoundsTo (ofUnits negative' units) (signed negative (numerator / denominator)) := by
  have nearest := ofQuotient_nearest positive finite
  obtain ⟨rfl, rfl, -⟩ := ofQuotient_units finite
  refine ⟨nearest, fun other isDouble different tie => ?_⟩
  have natural : (0 : ℚ) ≤ numerator / denominator :=
    div_nonneg (Nat.cast_nonneg _) (Nat.cast_nonneg _)
  obtain ⟨units, representable, rfl⟩ := tie_signed natural nearest isDouble tie
  have unit : (0 : ℚ) < unitsPerOne := Nat.cast_pos.mpr unitsPerOne_pos
  have common : (denominator : ℚ) * unitsPerOne ≠ 0 :=
    mul_ne_zero (Nat.cast_pos.mpr positive).ne' unit.ne'
  rw [signed_distance, signed_distance, quotient_distance positive unitsPerOne_pos,
    quotient_distance positive unitsPerOne_pos, div_left_inj' common, Int.cast_inj] at tie
  obtain ⟨count, even⟩ := rounded_tie positive representable
    (fun same => different (by rw [same])) tie
  refine ⟨count, ?_⟩
  have scaled := even_quotient even (unitsPerOne : ℚ)
  cases negative'
  · rw [ofUnits, ofUnits, signed, signed, if_neg Bool.false_ne_true, if_neg Bool.false_ne_true]
    exact scaled
  · rw [ofUnits, ofUnits, signed, signed, if_pos rfl, if_pos rfl]
    linear_combination -scaled

/-! ## Past the largest double -/

theorem le_roundHalfEven (numerator step : Nat) :
    numerator / step ≤ roundHalfEven numerator step := by
  unfold roundHalfEven
  dsimp only
  split
  · exact le_rfl
  · split
    · exact Nat.le_succ _
    · exact Nat.le_add_right ..

/-- What stays within an odd bound lies less than half a step above it, since the middle goes to the
even multiple behind the bound. -/
theorem roundHalfEven_le_iff (numerator : Nat) {bound : Nat} (positive : 0 < step)
    (odd : bound % 2 = 1) :
    roundHalfEven numerator step ≤ bound ↔ 2 * numerator < step * (2 * bound + 1) := by
  have parts : step * (numerator / step) + numerator % step = numerator :=
    Nat.div_add_mod numerator step
  have small : numerator % step < step := Nat.mod_lt numerator positive
  have middle : step * (2 * bound + 1) = 2 * (step * bound) + step := by ring
  rcases lt_trichotomy (numerator / step) bound with less | same | more
  · have within := Nat.mul_le_mul_left step less
    have most := roundHalfEven_le numerator step
    rw [Nat.mul_succ] at within
    omega
  · rw [same] at parts
    unfold roundHalfEven
    dsimp only
    rw [same]
    split
    · omega
    · split <;> omega
  · have beyond := Nat.mul_le_mul_left step more
    have least := le_roundHalfEven numerator step
    rw [Nat.mul_succ] at beyond
    omega

/-- Rounding does not leave the two powers of two that the quotient lies between. -/
theorem rounded_between (scaled denominator : Nat) :
    (scaled / denominator ≠ 0 → 2 ^ (scaled / denominator).log2 ≤ rounded scaled denominator) ∧
      rounded scaled denominator ≤ 2 ^ ((scaled / denominator).log2 + 1) := by
  have steps : scaled / (denominator * gap (scaled / denominator)) =
      scaled / denominator / 2 ^ ((scaled / denominator).log2 - 52) :=
    (Nat.div_div_eq_div_mul ..).symm
  have least := le_roundHalfEven scaled (denominator * gap (scaled / denominator))
  have most := roundHalfEven_le scaled (denominator * gap (scaled / denominator))
  rw [steps] at least most
  rw [rounded, gap, twoTo_eq]
  generalize scaled / denominator = whole at *
  have split (above : Nat) : 2 ^ (whole.log2 + above) =
      2 ^ (whole.log2 + above - (whole.log2 - 52)) * 2 ^ (whole.log2 - 52) := by
    rw [← pow_add]
    congr 1
    omega
  constructor
  · intro nonzero
    have reached : 2 ^ (whole.log2 - (whole.log2 - 52)) ≤ whole / 2 ^ (whole.log2 - 52) := by
      rw [Nat.le_div_iff_mul_le (by positivity)]
      exact (split 0).symm.trans_le (Nat.log2_self_le nonzero)
    calc 2 ^ whole.log2 = 2 ^ (whole.log2 - (whole.log2 - 52)) * 2 ^ (whole.log2 - 52) := split 0
      _ ≤ _ := Nat.mul_le_mul_right _ (reached.trans least)
  · have bounded : whole / 2 ^ (whole.log2 - 52) < 2 ^ (whole.log2 + 1 - (whole.log2 - 52)) := by
      rw [Nat.div_lt_iff_lt_mul (by positivity), ← split 1]
      exact Nat.lt_log2_self
    calc _ ≤ 2 ^ (whole.log2 + 1 - (whole.log2 - 52)) * 2 ^ (whole.log2 - 52) :=
          Nat.mul_le_mul_right _ (most.trans bounded)
      _ = 2 ^ (whole.log2 + 1) := (split 1).symm

/-- The least magnitude that is rounded to infinity: halfway between the largest double, which is
`2 ^ 1024 - 2 ^ 971`, and the next power of two. -/
def leastInfinite : Nat := twoTo 1024 - twoTo 970

theorem leastInfinite_eq : leastInfinite = (2 ^ 54 - 1) * 2 ^ 970 := by
  rw [leastInfinite, twoTo_eq, twoTo_eq, Nat.sub_mul, Nat.one_mul, ← pow_add]

theorem unitsLimit_eq : unitsLimit = 2 ^ 53 * 2 ^ 2045 := by
  rw [unitsLimit, twoTo_eq, ← pow_add]

theorem power_le_split {power low high : Nat} (within : power ≤ low + high) :
    2 ^ power ≤ 2 ^ low * 2 ^ high := by
  rw [← pow_add]
  exact pow_le_pow_right₀ one_le_two within

theorem split_le_power {power low high : Nat} (beyond : low + high ≤ power) :
    2 ^ low * 2 ^ high ≤ 2 ^ power := by
  rw [← pow_add]
  exact pow_le_pow_right₀ one_le_two beyond

/-- Below the last power of two in range both the rounded number of units and the quotient are in
range. -/
theorem rounded_lower (positive : 0 < denominator) {scaled : Nat}
    (below : (scaled / denominator).log2 < 2097) :
    rounded scaled denominator < 2 ^ 53 * 2 ^ 2045 ∧
      2 * scaled < denominator * ((2 ^ 54 - 1) * 2 ^ 2045) := by
  obtain ⟨-, most⟩ := rounded_between scaled denominator
  have power : 2 ^ ((scaled / denominator).log2 + 1) ≤ 2 ^ 52 * 2 ^ 2045 :=
    power_le_split (by omega)
  have under : scaled < denominator * (2 ^ 52 * 2 ^ 2045) := by
    rw [Nat.mul_comm, ← Nat.div_lt_iff_lt_mul positive]
    exact Nat.lt_log2_self.trans_le power
  have unit : 0 < 2 ^ 2045 := by positivity
  generalize 2 ^ 2045 = step at *
  have wide : 2 * (2 ^ 52 * step) ≤ (2 ^ 54 - 1) * step := by omega
  have scale := Nat.mul_le_mul_left denominator wide
  rw [Nat.mul_left_comm] at scale
  constructor <;> omega

/-- From that power of two on numbers are `2 ^ 2045` units apart, and the last one in range is an
odd multiple of this. -/
theorem rounded_last (positive : 0 < denominator) {scaled : Nat}
    (last : (scaled / denominator).log2 = 2097) :
    rounded scaled denominator < 2 ^ 53 * 2 ^ 2045 ↔
      2 * scaled < denominator * ((2 ^ 54 - 1) * 2 ^ 2045) := by
  have step : gap (scaled / denominator) = 2 ^ 2045 := by rw [gap, twoTo_eq, last]
  have odd := roundHalfEven_le_iff scaled
    (Nat.mul_pos positive (gap_pos (scaled / denominator))) (by decide : (2 ^ 53 - 1) % 2 = 1)
  rw [← step, rounded, Nat.mul_lt_mul_right (gap_pos _)]
  refine (Nat.le_sub_one_iff_lt (by decide)).symm.trans (odd.trans ?_)
  have bits : 2 * (2 ^ 53 - 1) + 1 = 2 ^ 54 - 1 := by norm_num
  rw [bits, Nat.mul_assoc, Nat.mul_comm (gap _)]

/-- From the next power of two on neither of them is. -/
theorem rounded_higher {scaled : Nat} (above : 2097 < (scaled / denominator).log2) :
    2 ^ 53 * 2 ^ 2045 ≤ rounded scaled denominator ∧
      denominator * ((2 ^ 54 - 1) * 2 ^ 2045) ≤ 2 * scaled := by
  obtain ⟨least, -⟩ := rounded_between scaled denominator
  have power : 2 ^ 53 * 2 ^ 2045 ≤ 2 ^ (scaled / denominator).log2 := split_le_power (by omega)
  have nonzero : scaled / denominator ≠ 0 := by
    intro zero
    simp [zero] at above
  have reached : denominator * (2 ^ 53 * 2 ^ 2045) ≤ scaled :=
    (Nat.mul_le_mul_left _ (power.trans (Nat.log2_self_le nonzero))).trans (Nat.mul_div_le ..)
  refine ⟨power.trans (least nonzero), ?_⟩
  generalize 2 ^ 2045 = step at *
  have wide : (2 ^ 54 - 1) * step ≤ 2 * (2 ^ 53 * step) := by omega
  have scale := Nat.mul_le_mul_left denominator wide
  rw [Nat.mul_left_comm denominator 2] at scale
  omega

/-- The rounded number of units is below the limit just where the quotient is below the middle. -/
theorem rounded_lt_limit (positive : 0 < denominator) (scaled : Nat) :
    rounded scaled denominator < unitsLimit ↔
      2 * scaled < denominator * ((2 ^ 54 - 1) * 2 ^ 2045) := by
  rw [unitsLimit_eq]
  rcases lt_trichotomy (scaled / denominator).log2 2097 with below | last | above
  · obtain ⟨rounds, small⟩ := rounded_lower positive below
    exact iff_of_true rounds small
  · exact rounded_last positive last
  · obtain ⟨rounds, large⟩ := rounded_higher above
    exact iff_of_false rounds.not_gt large.not_gt

theorem ofQuotient_eq (negative : Bool) (numerator denominator : Nat) :
    ofQuotient negative numerator denominator =
      if rounded (numerator * unitsPerOne) denominator < unitsLimit then
        .finite negative (rounded (numerator * unitsPerOne) denominator)
      else .infinite negative :=
  rfl

theorem rounded_finite_iff {numerator : Nat} (positive : 0 < denominator) :
    rounded (numerator * unitsPerOne) denominator < unitsLimit ↔
      numerator < denominator * leastInfinite := by
  have power : 2 ^ 2045 = 2 ^ 970 * (2 * unitsPerOne) := by
    rw [unitsPerOne, twoTo_eq, ← pow_succ', ← pow_add]
  rw [rounded_lt_limit positive, power, leastInfinite_eq, Nat.mul_left_comm,
    ← Nat.mul_assoc (2 ^ 54 - 1), ← Nat.mul_assoc denominator, Nat.mul_lt_mul_right]
  exact Nat.mul_pos two_pos unitsPerOne_pos

/-- **Below the middle a quotient is finite.** -/
theorem ofQuotient_finite {numerator : Nat} (positive : 0 < denominator)
    (small : numerator < denominator * leastInfinite) :
    ofQuotient negative numerator denominator =
      .finite negative (rounded (numerator * unitsPerOne) denominator) := by
  rw [ofQuotient_eq, if_pos ((rounded_finite_iff positive).mpr small)]

/-- **From the middle on a quotient is infinite.** -/
theorem ofQuotient_infinite {numerator : Nat} (positive : 0 < denominator)
    (large : denominator * leastInfinite ≤ numerator) :
    ofQuotient negative numerator denominator = .infinite negative := by
  rw [ofQuotient_eq, if_neg (mt (rounded_finite_iff positive).mp large.not_gt)]

/-- So a whole number that is small enough has a finite floating-point number. -/
theorem ofInt_finite {int : ℤ} (small : int.natAbs < leastInfinite) :
    ∃ units, ofInt int = .finite (decide (int < 0)) units :=
  ⟨_, ofQuotient_finite Nat.one_pos (by rwa [Nat.one_mul])⟩

theorem ofDecimal_plain (negative : Bool) {digits : Nat} (nonzero : digits ≠ 0) :
    ofDecimal ⟨negative, digits, 0⟩ = ofQuotient negative digits 1 := by
  have bounded : ¬ (0 : ℤ) + (digits.log2 / 3 + 1 : Nat) < -400 := by omega
  unfold ofDecimal
  dsimp only
  rw [if_neg nonzero, if_neg (by decide), if_neg bounded]
  exact congrArg (ofQuotient negative · 1) (Nat.mul_one digits)

theorem pow_lt_leastInfinite : 2 ^ 128 < leastInfinite := by
  have power : 2 ^ 129 ≤ 2 ^ 53 * 2 ^ 970 := power_le_split (by decide)
  rw [leastInfinite_eq]
  generalize 2 ^ 970 = step at *
  omega

/-- For a decimal without a fraction or an exponent the middle is the same. -/
theorem ofDecimal_finite (negative : Bool) {digits : Nat} (small : digits < leastInfinite) :
    ∃ units, ofDecimal ⟨negative, digits, 0⟩ = .finite negative units := by
  by_cases zero : digits = 0
  · subst zero
    exact ⟨0, rfl⟩
  · rw [ofDecimal_plain negative zero]
    exact ⟨_, ofQuotient_finite Nat.one_pos (by rwa [Nat.one_mul])⟩

theorem ofDecimal_infinite (negative : Bool) {digits : Nat} (large : leastInfinite ≤ digits) :
    ofDecimal ⟨negative, digits, 0⟩ = .infinite negative := by
  have nonzero : digits ≠ 0 := by
    have middle := pow_lt_leastInfinite
    omega
  rw [ofDecimal_plain negative nonzero]
  exact ofQuotient_infinite Nat.one_pos (by rwa [Nat.one_mul])

end ResourceQuery.HalfwayRounding
