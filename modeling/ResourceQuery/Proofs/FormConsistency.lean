import ResourceQuery.Proofs.ExactForms
import ResourceQuery.Proofs.HalfwayRounding

/-! How the forms of a numeral agree. Every numeral has a finite floating-point form. Its
whole-number forms are one and the same number, and that number is rounded to the floating-point
form (`forms_consistent`), whichever of them was read from the text: where the floating-point form
was, it is a whole number itself, and a double is rounded to itself. -/

namespace ResourceQuery.FormConsistency
open Number Number.Binary64
open IntegerSpellings DecimalTexts NearestDouble HalfwayRounding ExactForms

variable {text : String} {numeral : Numeral} {sign : Sign} {int : ℤ}
variable {negative negative' : Bool} {units units' : Nat}

/-! ## Equal numbers -/

theorem signed_inj {magnitude magnitude' : ℚ} :
    signed negative magnitude = signed negative magnitude' ↔ magnitude = magnitude' := by
  cases negative
  · exact Iff.rfl
  · exact neg_inj

/-- Magnitudes with opposite signs are equal only if both are zero. -/
theorem signed_opposite {magnitude magnitude' : ℚ} (opposite : negative ≠ negative')
    (natural : 0 ≤ magnitude) (natural' : 0 ≤ magnitude') :
    signed negative magnitude = signed negative' magnitude' ↔ magnitude = 0 ∧ magnitude' = 0 := by
  constructor
  · intro equal
    have zero : magnitude + magnitude' = 0 := by
      cases negative <;> cases negative'
      · exact absurd rfl opposite
      · exact eq_neg_iff_add_eq_zero.mp equal
      · rw [add_comm]
        exact eq_neg_iff_add_eq_zero.mp equal.symm
      · exact absurd rfl opposite
    exact (add_eq_zero_iff_of_nonneg natural natural').mp zero
  · rintro ⟨rfl, rfl⟩
    cases negative <;> cases negative' <;> simp [signed]

/-- Finite numbers are equal just where they are worth the same, since zeros of either sign are
equal. -/
theorem same_iff : (finite negative units).same (finite negative' units') = true ↔
    ofUnits negative units = ofUnits negative' units' := by
  have unit : (unitsPerOne : ℚ) ≠ 0 := (Nat.cast_pos.mpr unitsPerOne_pos).ne'
  have natural (units : Nat) : (0 : ℚ) ≤ units / unitsPerOne :=
    div_nonneg (Nat.cast_nonneg _) (Nat.cast_nonneg _)
  have zero (units : Nat) : (units : ℚ) / unitsPerOne = 0 ↔ units = 0 := by
    rw [div_eq_zero_iff, or_iff_left unit, Nat.cast_eq_zero]
  simp only [same, Bool.and_eq_true, Bool.or_eq_true, beq_iff_eq]
  rw [ofUnits, ofUnits]
  by_cases alike : negative = negative'
  · rw [alike, signed_inj, div_left_inj' unit, Nat.cast_inj, and_iff_left (.inl rfl)]
  · rw [signed_opposite alike (natural _) (natural _), zero, zero, or_iff_right alike]
    constructor
    · rintro ⟨rfl, none⟩
      exact ⟨none, none⟩
    · rintro ⟨rfl, rfl⟩
      exact ⟨rfl, rfl⟩

/-! ## Conversion of whole numbers -/

theorem signed_natAbs (int : ℤ) : signed (decide (int < 0)) int.natAbs = int := by
  rw [Nat.cast_natAbs, Int.cast_abs]
  rcases lt_or_ge int 0 with below | above
  · rw [decide_eq_true below, signed, if_pos rfl, abs_of_neg (Int.cast_lt_zero.mpr below), neg_neg]
  · rw [decide_eq_false above.not_gt, signed, if_neg Bool.false_ne_true,
      abs_of_nonneg (Int.cast_nonneg above)]

/-- A whole number is rounded as it is converted. -/
theorem ofInt_rounds (converted : ofInt int = .finite negative units) :
    RoundsTo (ofUnits negative units) int := by
  have rounds := ofQuotient_rounds one_pos converted
  rwa [Nat.cast_one, div_one, signed_natAbs] at rounds

/-- The finite number is the double that the whole number is rounded to. So it is equal to what the
whole number is converted to. -/
structure Converts (int : ℤ) (negative : Bool) (units : Nat) : Prop where
  rounds : RoundsTo (ofUnits negative units) int
  same : (finite negative units).same (ofInt int) = true

theorem converts_of_rounds (small : int.natAbs < leastInfinite)
    (rounds : RoundsTo (ofUnits negative units) int) : Converts int negative units := by
  obtain ⟨units', converted⟩ := ofInt_finite small
  refine ⟨rounds, ?_⟩
  rw [converted, same_iff]
  exact rounds_unique rounds (ofInt_rounds converted)

/-- A finite number that is worth a whole number is what that number is rounded to. -/
theorem converts_of_worth (small : int.natAbs < leastInfinite)
    (isDouble : IsDouble (ofUnits negative units)) (worth : (int : ℚ) = ofUnits negative units) :
    Converts int negative units := by
  apply converts_of_rounds small
  rw [worth]
  exact rounds_self isDouble

/-! ## Forms of a numeral -/

theorem fitting_small (bounded : int.natAbs ≤ 2 ^ 64) : int.natAbs < leastInfinite :=
  calc int.natAbs ≤ 2 ^ 64 := bounded
    _ < 2 ^ 128 := by norm_num
    _ < leastInfinite := pow_lt_leastInfinite

/-- How the forms agree where the floating-point form is so many units. -/
structure Consistent (numeral : Numeral) (negative : Bool) (units : Nat) : Prop where
  float : numeral.float = some (.finite negative units)
  isDouble : IsDouble (ofUnits negative units)
  whole : ∀ int uint, numeral.int = some int → numeral.uint = some uint → int = uint
  signed : ∀ int, numeral.int = some int → Converts int negative units
  unsigned : ∀ uint, numeral.uint = some uint → Converts uint negative units

/-- The floating-point form of a spelled whole number is made from that number. -/
theorem spelled_float (writes : Writes sign text int) (ok : Numeral.read text = .ok numeral) :
    numeral.float = some (ofInt int) := by
  obtain ⟨signed, unsigned⟩ := (writes_read writes).exact numeral ok
  unfold Numeral.read at ok
  dsimp only at ok
  split at ok
  · rename_i value found
    cases ok
    rw [signed value found]
  · rename_i value none found
    cases ok
    rw [unsigned value found]
  · obtain ⟨fault, refused⟩ := readFloat_writes writes
    cases refused.symm.trans ok

/-- A whole number that is read is not too large for a floating-point number. -/
theorem spelled_small (writes : Writes sign text int) (ok : Numeral.read text = .ok numeral) :
    int.natAbs < leastInfinite := by
  have fits : FitsSigned int ∨ FitsUnsigned sign int := by
    by_contra unfit
    obtain ⟨fault, refused⟩ := (writes_read writes).fails unfit
    cases refused.symm.trans ok
  obtain ⟨cs, magnitude, -, -, rfl⟩ := writes
  apply fitting_small
  rcases fits with signed | zero | ⟨rfl, small⟩
  · unfold FitsSigned at signed
    omega
  · rw [zero]
    exact Nat.zero_le _
  · simp only [Sign.apply] at small ⊢
    omega

theorem spelled_consistent (writes : Writes sign text int) (ok : Numeral.read text = .ok numeral) :
    ∃ negative units, Consistent numeral negative units := by
  obtain ⟨signed, unsigned⟩ := (writes_read writes).exact numeral ok
  have small := spelled_small writes ok
  obtain ⟨units, converted⟩ := ofInt_finite small
  have converts := converts_of_rounds small (ofInt_rounds converted)
  refine ⟨_, units, (spelled_float writes ok).trans (congrArg some converted),
    converts.rounds.isDouble, fun form form' found found' => ?_, fun form found => ?_,
    fun form found => ?_⟩
  · rw [signed form found, unsigned form' found']
  · rwa [signed form found]
  · rwa [unsigned form found]

/-- The whole-number forms of a double are what it is worth. -/
theorem ofFloat_consistent (isDouble : IsDouble (ofUnits negative units)) :
    Consistent (Numeral.ofFloat text (.finite negative units)) negative units := by
  refine ⟨rfl, isDouble, fun form form' found found' => ?_, fun form found => ?_,
    fun form found => ?_⟩
  · have worth := (ofFloat_int.mp found).1
    have worth' := (ofFloat_uint.mp found').1
    exact Option.some.inj (worth.symm.trans worth')
  · obtain ⟨worth, fits⟩ := ofFloat_int.mp found
    unfold FitsSigned at fits
    exact converts_of_worth (fitting_small (by omega)) isDouble (toInt_iff.mp worth)
  · obtain ⟨worth, small⟩ := ofFloat_uint.mp found
    exact converts_of_worth (fitting_small (by omega)) isDouble (toInt_iff.mp worth)

/-- **The forms of a numeral agree.** The floating-point form of whatever is read is finite, its
whole-number forms are the same number, and the floating-point form is what that is rounded to. -/
theorem forms_consistent (text : String) (numeral : Numeral)
    (ok : Numeral.read text = .ok numeral) :
    ∃ negative units, Consistent numeral negative units := by
  by_cases spelled : Spelled text
  · obtain ⟨sign, int, writes⟩ := spelled
    exact spelled_consistent writes ok
  · rw [unwritten_read fun sign int writes => spelled ⟨sign, int, writes⟩] at ok
    obtain ⟨-, decimal, -, finite, rfl⟩ := readFloat_iff.mp ok
    cases rounded : ofDecimal decimal with
    | finite negative units =>
      exact ⟨negative, units, ofFloat_consistent (ofDecimal_nearest rounded).isDouble⟩
    | infinite negative => exact absurd rounded (finite negative)
    | notANumber => exact absurd rounded (ofDecimal_number decimal)

/-- A whole number in the middle between two doubles, so that its floating-point form is rounded. -/
theorem forms_consistent_middle : ∃ numeral, Numeral.read "9007199254740993" = .ok numeral ∧
    numeral.int = some (2 ^ 53 + 1) ∧ numeral.uint = some (2 ^ 53 + 1) ∧
      ∃ negative units, Consistent numeral negative units := by
  obtain ⟨numeral, ok, int, uint⟩ : ∃ numeral, Numeral.read "9007199254740993" = .ok numeral ∧
      numeral.int = some (2 ^ 53 + 1) ∧ numeral.uint = some (2 ^ 53 + 1) :=
    read_forms (by decide +kernel)
  exact ⟨numeral, ok, int, uint, forms_consistent _ numeral ok⟩

end ResourceQuery.FormConsistency
