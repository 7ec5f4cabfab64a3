import Mathlib.Data.Nat.Cast.Field
import ResourceQuery.Proofs.DecimalTexts
import ResourceQuery.Proofs.NearestDouble

/-! What a literal denotes, and which of its whole-number forms are that very number. The forms of a
spelled whole number are. Those of a decimal are taken from the double that it is rounded to, so
they are the denoted number if and only if no rounding was needed (`forms_follow_double`), and a
decimal that lies between two doubles may get the form of a whole number that it is not
(`rounded_form_inexact`). -/

namespace ResourceQuery.ExactForms
open Number IntegerSpellings DecimalTexts NearestDouble
open Number.Binary64 (unitsPerOne ofDecimal_number)

/-- The number that a literal denotes: that of a spelled whole number, or that of a decimal that has
a point or an exponent. -/
inductive Denotes (text : String) : ℚ → Prop where
  | whole (writes : Writes sign text int) : Denotes text int
  | decimal (fraction : Fractional text) (writes : WritesDecimal text decimal) :
      Denotes text (decimalValue decimal)

/-- The text spells a whole number. -/
def Spelled (text : String) : Prop := ∃ sign int, Writes sign text int

variable {text : String} {value value' double : ℚ} {numeral : Numeral}

/-! ## The denoted number -/

theorem writes_unique {sign sign' : Sign} {int int' : ℤ} (writes : Writes sign text int)
    (writes' : Writes sign' text int') : int = int' :=
  Option.some.inj ((integer_iff.mpr ⟨sign, writes⟩).symm.trans (integer_iff.mpr ⟨sign', writes'⟩))

theorem decimal_unique {decimal decimal' : Decimal} (writes : WritesDecimal text decimal)
    (writes' : WritesDecimal text decimal') : decimal = decimal' := by
  have same := (read_decimal.mpr writes).symm.trans (read_decimal.mpr writes')
  exact FloatText.decimal.inj (Option.some.inj same)

/-- A decimal with a point or an exponent is not the spelling of a whole number. -/
theorem decimal_unspelled {decimal : Decimal} (fraction : Fractional text)
    (writes : WritesDecimal text decimal) : ¬ Spelled text := by
  rintro ⟨sign, int, spelled⟩
  rcases writes_apart spelled with whole | unread
  · rw [isFractional_iff.mpr fraction] at whole
    cases whole
  · rw [read_decimal.mpr writes] at unread
    cases unread

/-- No text denotes two numbers. -/
theorem denotes_unique (denotes : Denotes text value) (denotes' : Denotes text value') :
    value = value' := by
  cases denotes with
  | whole writes =>
    cases denotes' with
    | whole writes' => rw [writes_unique writes writes']
    | decimal fraction written => exact absurd ⟨_, _, writes⟩ (decimal_unspelled fraction written)
  | decimal fraction writes =>
    cases denotes' with
    | whole writes' => exact absurd ⟨_, _, writes'⟩ (decimal_unspelled fraction writes)
    | decimal fraction' writes' => rw [decimal_unique writes writes']

/-! ## Forms of doubles -/

theorem signed_cast (negative : Bool) (count : Nat) :
    ((if negative then -(count : ℤ) else count : ℤ) : ℚ) = signed negative count := by
  cases negative
  · exact Int.cast_natCast count
  · exact (Int.cast_neg _).trans (congrArg Neg.neg (Int.cast_natCast count))

theorem abs_signed (negative : Bool) {magnitude : ℚ} (natural : 0 ≤ magnitude) :
    |signed negative magnitude| = magnitude := by
  cases negative
  · exact abs_of_nonneg natural
  · exact (abs_neg magnitude).trans (abs_of_nonneg natural)

/-- A finite floating-point number has the form of a whole number if and only if it is worth one. -/
theorem toInt_iff {negative : Bool} {units : Nat} {int : ℤ} :
    (Binary64.finite negative units).toInt? = some int ↔ (int : ℚ) = ofUnits negative units := by
  have unit : (unitsPerOne : ℚ) ≠ 0 := (Nat.cast_pos.mpr unitsPerOne_pos).ne'
  dsimp only [Binary64.toInt?]
  constructor
  · intro found
    split at found
    · rename_i whole
      have worth := Nat.cast_div (K := ℚ) (Nat.dvd_of_mod_eq_zero whole) unit
      rw [← Option.some.inj found, signed_cast, worth, ofUnits]
    · cases found
  · intro same
    have magnitude : (int.natAbs : ℚ) = units / unitsPerOne := by
      rw [Nat.cast_natAbs, Int.cast_abs, same, ofUnits,
        abs_signed negative (div_nonneg (Nat.cast_nonneg _) (Nat.cast_nonneg _))]
    have whole : units = int.natAbs * unitsPerOne := Nat.cast_injective (R := ℚ) (by
      rw [Nat.cast_mul, magnitude, div_mul_cancel₀ _ unit])
    rw [whole, if_pos (Nat.mul_mod_left ..), Nat.mul_div_cancel _ unitsPerOne_pos]
    rw [ofUnits, ← magnitude, ← signed_cast] at same
    exact congrArg some (Int.cast_injective same).symm

theorem ofFloat_int {float : Binary64} {form : ℤ} :
    (Numeral.ofFloat text float).int = some form ↔ float.toInt? = some form ∧ FitsSigned form := by
  rw [Numeral.ofFloat, Option.filter_eq_some_iff, fitsSigned_iff]

theorem ofFloat_uint {float : Binary64} {form : Nat} :
    (Numeral.ofFloat text float).uint = some form ↔
      float.toInt? = some (form : ℤ) ∧ form < 2 ^ 64 := by
  rw [Numeral.ofFloat, Option.map_eq_some_iff]
  constructor
  · rintro ⟨int, found, rfl⟩
    obtain ⟨found, fits⟩ := Option.filter_eq_some_iff.mp found
    simp only [fitsUnsigned, Bool.and_eq_true, decide_eq_true_eq] at fits
    rw [Int.toNat_of_nonneg fits.1]
    exact ⟨found, by omega⟩
  · rintro ⟨found, fits⟩
    refine ⟨form, Option.filter_eq_some_iff.mpr ⟨found, ?_⟩, Int.toNat_natCast form⟩
    simp only [fitsUnsigned, Bool.and_eq_true, decide_eq_true_eq]
    omega

/-! ## Forms of literals -/

/-- What the whole-number forms of a read literal are, where it denotes the value. -/
structure FormsFollow (text : String) (numeral : Numeral) (value : ℚ) : Prop where
  denoted : ∀ other, Denotes text other ↔ other = value
  /-- The forms of a spelled whole number are the number. -/
  spelled : Spelled text →
    (∀ form, numeral.int = some form → (form : ℚ) = value) ∧
      ∀ form, numeral.uint = some form → (form : ℚ) = value
  /-- Those of a decimal are the nearest double, where that is a whole number in range. -/
  rounded : ¬ Spelled text → ∃ double, Nearest double value ∧
    (∀ form, numeral.int = some form ↔ (form : ℚ) = double ∧ FitsSigned form) ∧
      ∀ form, numeral.uint = some form ↔ (form : ℚ) = double ∧ form < 2 ^ 64
  /-- So a form is the denoted number just where nothing is lost by rounding. -/
  exact : (∀ form, numeral.int = some form → ((form : ℚ) = value ↔ Spelled text ∨ IsDouble value)) ∧
    ∀ form, numeral.uint = some form → ((form : ℚ) = value ↔ Spelled text ∨ IsDouble value)

theorem spelled_follows {sign : Sign} {int : ℤ} (writes : Writes sign text int)
    (ok : Numeral.read text = .ok numeral) : FormsFollow text numeral int := by
  obtain ⟨signed, unsigned⟩ := (writes_read writes).exact numeral ok
  have forms : (∀ form, numeral.int = some form → (form : ℚ) = int) ∧
      ∀ form, numeral.uint = some form → (form : ℚ) = int :=
    ⟨fun form found => by rw [signed form found],
      fun form found => by rw [← unsigned form found, Int.cast_natCast]⟩
  have spelled : Spelled text := ⟨sign, int, writes⟩
  refine ⟨fun other => ⟨fun denotes => denotes_unique denotes (.whole writes), ?_⟩,
    fun _ => forms, fun unspelled => absurd spelled unspelled,
    fun form found => iff_of_true (forms.1 form found) (.inl spelled),
    fun form found => iff_of_true (forms.2 form found) (.inl spelled)⟩
  rintro rfl
  exact .whole writes

theorem decimal_follows {decimal : Decimal} (fraction : Fractional text)
    (writes : WritesDecimal text decimal)
    (finite : ∀ negative, Binary64.ofDecimal decimal ≠ .infinite negative) :
    FormsFollow text (Numeral.ofFloat text (Binary64.ofDecimal decimal))
      (decimalValue decimal) := by
  have unspelled := decimal_unspelled fraction writes
  obtain ⟨negative, units, float⟩ :
      ∃ negative units, Binary64.ofDecimal decimal = .finite negative units := by
    cases rounded : Binary64.ofDecimal decimal with
    | finite negative units => exact ⟨negative, units, rfl⟩
    | infinite negative => exact absurd rounded (finite negative)
    | notANumber => exact absurd rounded (ofDecimal_number decimal)
  have nearest := ofDecimal_nearest float
  rw [float]
  have signed (form : ℤ) : (Numeral.ofFloat text (.finite negative units)).int = some form ↔
      (form : ℚ) = ofUnits negative units ∧ FitsSigned form := by
    rw [ofFloat_int, toInt_iff]
  have unsigned (form : Nat) : (Numeral.ofFloat text (.finite negative units)).uint = some form ↔
      (form : ℚ) = ofUnits negative units ∧ form < 2 ^ 64 := by
    rw [ofFloat_uint, toInt_iff, Int.cast_natCast]
  have exact {form : ℚ} (same : form = ofUnits negative units) :
      form = decimalValue decimal ↔ Spelled text ∨ IsDouble (decimalValue decimal) := by
    rw [same, nearest_double nearest, or_iff_right unspelled]
  refine ⟨fun other => ⟨fun denotes => denotes_unique denotes (.decimal fraction writes), ?_⟩,
    fun spelled => absurd spelled unspelled, fun _ => ⟨_, nearest, signed, unsigned⟩,
    fun form found => exact ((signed form).mp found).1,
    fun form found => exact ((unsigned form).mp found).1⟩
  rintro rfl
  exact .decimal fraction writes

/-- **The whole-number forms of a literal are what it denotes unless rounding changed it.** Whatever
is read denotes exactly one number, and a whole-number form is that number if and only if the
literal spells a whole number or denotes a double. -/
theorem forms_follow_double (text : String) (numeral : Numeral)
    (ok : Numeral.read text = .ok numeral) : ∃ value, FormsFollow text numeral value := by
  by_cases spelled : Spelled text
  · obtain ⟨sign, int, writes⟩ := spelled
    exact ⟨int, spelled_follows writes ok⟩
  · have read := unwritten_read fun sign int writes => spelled ⟨sign, int, writes⟩
    obtain ⟨fraction, decimal, writes, finite, rfl⟩ := readFloat_iff.mp (read ▸ ok)
    exact ⟨decimalValue decimal, decimal_follows fraction writes finite⟩

theorem read_forms {int : Option ℤ} {uint : Option Nat} (read : (Numeral.read text).toOption.map
      (fun numeral => (numeral.int, numeral.uint)) = some (int, uint)) :
    ∃ numeral, Numeral.read text = .ok numeral ∧ numeral.int = int ∧ numeral.uint = uint := by
  cases ok : Numeral.read text with
  | error fault =>
    rw [ok] at read
    cases read
  | ok numeral =>
    rw [ok] at read
    cases read
    exact ⟨numeral, rfl, rfl, rfl⟩

/-- A decimal with a fraction of one digit, which its exponent makes whole. -/
theorem forms_follow_double_whole : ∃ numeral, Numeral.read "-1.5e1" = .ok numeral ∧
    numeral.int = some (-15) ∧ FormsFollow "-1.5e1" numeral (-15) := by
  obtain ⟨numeral, ok, int, -⟩ : ∃ numeral, Numeral.read "-1.5e1" = .ok numeral ∧
      numeral.int = some (-15) ∧ numeral.uint = none := read_forms (by decide +kernel)
  obtain ⟨value, follows⟩ := forms_follow_double "-1.5e1" numeral ok
  have decimal : WritesDecimal "-1.5e1" ⟨true, 15, 0⟩ := read_decimal.mp (by decide +kernel)
  have denotes := (follows.denoted _).mp (.decimal (.inl (by decide)) decimal)
  have worth : decimalValue ⟨true, 15, 0⟩ = -15 := by simp [decimalValue, signed]
  rw [← worth, denotes]
  exact ⟨numeral, ok, int, follows⟩

/-- The decimal is a little more than one, and nearer to one than to any other double. -/
theorem rounded_form_inexact : ∃ numeral, Numeral.read "1.00000000000000000001" = .ok numeral ∧
    numeral.int = some 1 ∧ numeral.uint = some 1 ∧
    Denotes "1.00000000000000000001" (1 + 1 / 10 ^ 20) ∧
    ¬ Denotes "1.00000000000000000001" (1 : ℤ) := by
  have decimal : WritesDecimal "1.00000000000000000001" ⟨false, 100000000000000000001, -20⟩ :=
    read_decimal.mp (by decide +kernel)
  have worth : decimalValue ⟨false, 100000000000000000001, -20⟩ = 1 + 1 / 10 ^ 20 := by
    rw [decimalValue, signed, if_neg Bool.false_ne_true]
    norm_num
  have denotes := worth ▸ Denotes.decimal (.inl (by decide)) decimal
  obtain ⟨numeral, ok, int, uint⟩ : ∃ numeral, Numeral.read "1.00000000000000000001" = .ok numeral ∧
      numeral.int = some 1 ∧ numeral.uint = some 1 := read_forms (by decide +kernel)
  refine ⟨numeral, ok, int, uint, denotes, fun whole => ?_⟩
  have same := denotes_unique denotes whole
  norm_num at same

end ResourceQuery.ExactForms
