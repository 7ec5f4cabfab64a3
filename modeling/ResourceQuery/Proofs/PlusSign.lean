import ResourceQuery.Proofs.IntegerOverflow

/-! A plus sign in front of a literal. It changes neither the signed form of the literal nor its
floating-point form nor the kind of its fault, with one exception: a spelled whole number that fits
into 64 bits only without a sign is read without the plus and refused with it
(`plus_keeps_outcome`). -/

namespace ResourceQuery.PlusSign
open Number IntegerSpellings DecimalTexts HalfwayRounding IntegerOverflow

/-- Two outcomes of reading that differ at most in the spelling and in the unsigned form. -/
inductive Agree (text text' : String) :
    Except LiteralFault Numeral → Except LiteralFault Numeral → Prop where
  | read (int : numeral.int = numeral'.int) (float : numeral.float = numeral'.float) :
      Agree text text' (.ok numeral) (.ok numeral')
  | illegal : Agree text text' (.error (.illegalNumber text)) (.error (.illegalNumber text'))
  | overflow : Agree text text' (.error (.integerOverflow text)) (.error (.integerOverflow text'))

/-- The text does not start with a sign of its own. -/
def Signless (text : String) : Prop := text.toList.head? ≠ some '-' ∧ text.toList.head? ≠ some '+'

/-- The number fits into 64 bits, but not with a sign. -/
def OnlyUnsigned (value : Nat) : Prop := 2 ^ 63 ≤ value ∧ value < 2 ^ 64

variable {text text' : String} {cs : List Char} {value : Nat}

/-! ## Reading behind a plus sign -/

theorem plus_toList (text : String) : ("+" ++ text).toList = '+' :: text.toList :=
  String.toList_append

theorem splitSign_signless (signless : Signless text) :
    splitSign text.toList = (false, text.toList) :=
  splitSign_chars .none signless.1 signless.2

theorem signed_plus (signless : Signless text) :
    Numeral.signed? ("+" ++ text) = Numeral.signed? text := by
  rw [Numeral.signed?, Numeral.signed?, integer?, integer?, plus_toList,
    splitSign_signless signless]
  rfl

/-- No unsigned spelling starts with a plus sign. -/
theorem magnitude_plus (text : String) : magnitude? ("+" ++ text).toList = none := by
  rw [plus_toList]
  cases found : magnitude? ('+' :: text.toList) with
  | none => rfl
  | some value =>
    obtain ⟨c, rest, same, digit⟩ := unsigned_head (magnitude_iff.mp found)
    cases same
    cases digit

theorem read_float_plus (signless : Signless text) :
    FloatText.read? ("+" ++ text).toList = FloatText.read? text.toList := by
  rw [FloatText.read?, FloatText.read?, plus_toList, splitSign_signless signless]
  rfl

theorem isFractional_plus (text : String) :
    Numeral.isFractional ("+" ++ text) = Numeral.isFractional text := by
  rw [Numeral.isFractional, plus_toList]
  rfl

/-- Where the same floating-point number is read from two texts, the outcomes agree. -/
theorem readFloat_agree (read : FloatText.read? text.toList = FloatText.read? text'.toList)
    (marks : Numeral.isFractional text = Numeral.isFractional text') :
    Agree text text' (Numeral.readFloat text) (Numeral.readFloat text') := by
  unfold Numeral.readFloat
  rw [read, marks]
  cases FloatText.read? text'.toList with
  | none => exact .illegal
  | some spelled =>
    dsimp only
    split
    · exact .illegal
    · by_cases fraction : Numeral.isFractional text' = true
      · rw [if_pos fraction, if_pos fraction]
        exact .read rfl rfl
      · rw [if_neg fraction, if_neg fraction]
        exact .overflow

/-- A literal that has a signed form has the same with a plus sign, and one that has no form of a
whole number is read as a floating-point number with it and without it. -/
theorem plus_agrees (signless : Signless text)
    (either : Numeral.signed? text = none → Numeral.unsigned? text = none) :
    Agree ("+" ++ text) text (Numeral.read ("+" ++ text)) (Numeral.read text) := by
  have same := signed_plus signless
  cases signed : Numeral.signed? text with
  | some int =>
    rw [signed] at same
    simp only [Numeral.read, same, signed]
    exact .read rfl rfl
  | none =>
    rw [signed] at same
    have unsigned : Numeral.unsigned? ("+" ++ text) = none := by
      rw [Numeral.unsigned?, same, if_neg (Option.some_ne_none 0).symm, magnitude_plus]
      rfl
    rw [read_out_of_range same unsigned, read_out_of_range signed (either signed)]
    exact readFloat_agree (read_float_plus signless) (isFractional_plus text)

/-! ## Numbers that fit only without a sign -/

/-- What has an unsigned form and no signed one spells such a number. -/
theorem unsigned_only (signed : Numeral.signed? text = none)
    (unsigned : Numeral.unsigned? text = some value) :
    Unsigned text.toList value ∧ OnlyUnsigned value := by
  rw [Numeral.unsigned?, signed, if_neg (Option.some_ne_none 0).symm,
    Option.filter_eq_some_iff] at unsigned
  obtain ⟨found, fits⟩ := unsigned
  have spelled := magnitude_iff.mp found
  have writes : Writes .none text value := ⟨_, value, rfl, spelled, rfl⟩
  have unfit : ¬ FitsSigned value := by
    rw [← signed_isSome writes, signed]
    exact Bool.false_ne_true
  simp only [fitsUnsigned, FitsSigned, Bool.and_eq_true, decide_eq_true_eq] at fits unfit
  exact ⟨spelled, by omega, by omega⟩

/-- In base ten the same octal digits are worth at most the square of what they spell. -/
theorem octal_decimal (digits : Spells 8 cs value) :
    ∃ decimal, Spells 10 cs decimal ∧ decimal ≤ value ^ 2 := by
  induction digits with
  | nil => exact ⟨0, .nil, Nat.zero_le _⟩
  | @cons c worth cs rest digit small others ih =>
    obtain ⟨decimal, spells, bound⟩ := ih
    refine ⟨_, .cons digit (by omega) spells, ?_⟩
    have place : worth * 10 ^ cs.length ≤ (worth * 8 ^ cs.length) ^ 2 := by
      rw [Nat.mul_pow, ← Nat.pow_mul, Nat.mul_comm _ 2, Nat.pow_mul]
      exact Nat.mul_le_mul (Nat.le_self_pow two_ne_zero worth)
        (Nat.pow_le_pow_left (by decide) _)
    calc worth * 10 ^ cs.length + decimal
        ≤ (worth * 8 ^ cs.length) ^ 2 + rest ^ 2 := Nat.add_le_add place bound
      _ ≤ (worth * 8 ^ cs.length + rest) ^ 2 := by
        rw [add_sq, Nat.add_right_comm]
        exact Nat.le_add_right ..

/-- The text has the letter of a base behind a zero. -/
def Marked (text : String) : Prop := ∃ c base cs, Marks c base ∧ text.toList = '0' :: c :: cs

/-- No floating-point number is read from such a text: it is none of the words either. -/
theorem marked_unread (marked : Marked text) (signless : Signless text) :
    FloatText.read? text.toList = none := by
  obtain ⟨c, base, cs, mark, written⟩ := marked
  have split := splitSign_signless signless
  have heads : ∀ name ∈ numberWords, name.toList.head? ≠ some '0' := by decide
  have other : lowered text.toList ∉ numberWords := by
    intro word
    apply heads _ word
    rw [lowered, split, written, String.toList_ofList]
    rfl
  rw [read_unworded other, split, written, IntegerSpellings.marked_unread mark]
  rfl

/-- What is not marked is written with decimal digits, and they are not worth too much. -/
theorem unmarked_digits (unmarked : ¬ Marked text) (spelled : Unsigned text.toList value) :
    ∃ decimal, text.toList ≠ [] ∧ Spells 10 text.toList decimal ∧ decimal ≤ value ^ 2 := by
  generalize written : text.toList = cs at spelled
  cases spelled with
  | marked mark nonempty digits => exact absurd ⟨_, _, _, mark, written⟩ unmarked
  | octal nonempty digits =>
    obtain ⟨decimal, spells, bound⟩ := octal_decimal digits
    have zero := Spells.cons (by decide : ('0', 0) ∈ digitTable) (by decide) spells
    rw [Nat.zero_mul, Nat.zero_add] at zero
    exact ⟨decimal, List.cons_ne_nil _ _, zero, bound⟩
  | decimal nonempty plain digits =>
    exact ⟨value, nonempty, digits, Nat.le_self_pow two_ne_zero value⟩

/-- What reading comes to, with a plus sign and without it, where the number fits only without a
sign. -/
structure LosesForm (text : String) (value : Nat) : Prop where
  plain : ∃ numeral, Numeral.read text = .ok numeral ∧ numeral.int = none ∧
    numeral.uint = some value
  marked : Marked text → Numeral.read ("+" ++ text) = .error (.illegalNumber ("+" ++ text))
  unmarked : ¬ Marked text → Numeral.read ("+" ++ text) = .error (.integerOverflow ("+" ++ text))

theorem unsigned_signless (spelled : Unsigned text.toList value) : Signless text := by
  obtain ⟨c, rest, same, digit⟩ := unsigned_head spelled
  rw [Signless, same]
  constructor <;> (intro head; cases head; cases digit)

theorem only_unsigned (spelled : Unsigned text.toList value) (only : OnlyUnsigned value) :
    LosesForm text value := by
  obtain ⟨large, small⟩ := only
  have signless := unsigned_signless spelled
  have writes : Writes .none text value := ⟨_, value, rfl, spelled, rfl⟩
  have signed : Numeral.signed? text = none := by
    rw [← Option.not_isSome_iff_eq_none, signed_isSome writes, FitsSigned]
    omega
  have unsigned : Numeral.unsigned? text = some value :=
    (unsigned_iff writes).mpr ⟨.inr ⟨rfl, by omega⟩, rfl⟩
  have refused : Numeral.read ("+" ++ text) = Numeral.readFloat ("+" ++ text) := by
    have plus : Writes .plus ("+" ++ text) value := ⟨_, value, plus_toList text, spelled, rfl⟩
    apply read_unfit plus
    simp only [FitsSigned, FitsUnsigned, reduceCtorEq, false_and, or_false]
    omega
  refine ⟨?_, fun marked => ?_, fun unmarked => ?_⟩
  · obtain ⟨float, read⟩ := read_in_range (.inr (by rw [unsigned]; rfl))
    exact ⟨_, read, signed, unsigned⟩
  · rw [refused, Numeral.readFloat, read_float_plus signless, marked_unread marked signless]
  · obtain ⟨decimal, nonempty, digits, bound⟩ := unmarked_digits unmarked spelled
    have written : ("+" ++ text).toList = Sign.plus.chars ++ text.toList := plus_toList text
    have finite : decimal < leastInfinite := by
      calc decimal ≤ value ^ 2 := bound
        _ ≤ (2 ^ 64) ^ 2 := Nat.pow_le_pow_left small.le 2
        _ = 2 ^ 128 := by norm_num
        _ < leastInfinite := pow_lt_leastInfinite
    rw [refused, readFloat_digits written nonempty digits, if_pos finite]

/-- **A plus sign changes the outcome only where it takes the last form away.** In front of a text
that starts with no sign it keeps the signed form, the floating-point form and the kind of the
fault, unless the text spells a whole number that fits into 64 bits only without a sign. Then the
text is read and with the plus sign it is refused. -/
theorem plus_keeps_outcome (text : String) (signless : Signless text) :
    ((∀ value, Unsigned text.toList value → ¬ OnlyUnsigned value) →
      Agree ("+" ++ text) text (Numeral.read ("+" ++ text)) (Numeral.read text)) ∧
    ∀ value, Unsigned text.toList value → OnlyUnsigned value → LosesForm text value := by
  refine ⟨fun none => plus_agrees signless fun signed => ?_, fun value => only_unsigned⟩
  cases unsigned : Numeral.unsigned? text with
  | none => rfl
  | some value =>
    obtain ⟨spelled, only⟩ := unsigned_only signed unsigned
    exact absurd only (none value spelled)

/-- With and without the plus sign: a number in base sixteen, and the least one that loses its form.
-/
theorem plus_keeps_outcome_hexadecimal :
    Agree "+0x7F" "0x7F" (Numeral.read "+0x7F") (Numeral.read "0x7F") ∧
      LosesForm "0x8000000000000000" (2 ^ 63) := by
  have small (value : Nat) (spelled : Unsigned "0x7F".toList value) : ¬ OnlyUnsigned value := by
    have found : magnitude? "0x7F".toList = some 127 := by decide +kernel
    obtain rfl := Option.some.inj (found.symm.trans (magnitude_iff.mpr spelled))
    exact fun only => absurd only.1 (by decide)
  have least : Unsigned "0x8000000000000000".toList (2 ^ 63) :=
    magnitude_iff.mp (by decide +kernel)
  exact ⟨(plus_keeps_outcome "0x7F" ⟨by decide, by decide⟩).1 small,
    (plus_keeps_outcome "0x8000000000000000" ⟨by decide, by decide⟩).2 _ least
      ⟨by decide, by decide⟩⟩

/-- So a plus sign does change an outcome. -/
theorem plus_refuses_number : Unsigned "9223372036854775808".toList (2 ^ 63) ∧
    (∃ numeral, Numeral.read "9223372036854775808" = .ok numeral) ∧
    Numeral.read "+9223372036854775808" = .error (.integerOverflow "+9223372036854775808") := by
  have spelled : Unsigned "9223372036854775808".toList (2 ^ 63) :=
    magnitude_iff.mp (by decide +kernel)
  have unmarked : ¬ Marked "9223372036854775808" := by
    rintro ⟨c, base, cs, mark, written⟩
    cases written
  have loses := only_unsigned spelled ⟨by decide, by decide⟩
  obtain ⟨numeral, read, -⟩ := loses.plain
  exact ⟨spelled, ⟨numeral, read⟩, loses.unmarked unmarked⟩

end ResourceQuery.PlusSign
