import ResourceQuery.Proofs.DecimalTexts
import ResourceQuery.Proofs.HalfwayRounding

/-! Whole numbers that fit into no form of 64 bits. One that is written plainly, in base ten, is
read if and only if it fits into one of the two forms; otherwise it is refused, and its size alone
decides with which fault (`refusal_follows_size`). From the least magnitude on that is too large for
a floating-point number, the fault is no longer that of a whole number that is too large
(`vast_integer_illegal`). -/

namespace ResourceQuery.IntegerOverflow
open Number IntegerSpellings DecimalTexts HalfwayRounding

/-- Digits of base ten, the first of them no zero, and maybe a minus sign before them. -/
inductive Plain (text : String) : ℤ → Prop where
  | intro (sign : Sign) (unsigned : sign ≠ .plus) (written : text.toList = sign.chars ++ cs)
      (nonempty : cs ≠ []) (leading : cs.head? ≠ some '0') (digits : Spells 10 cs magnitude) :
      Plain text (sign.apply magnitude)

variable {text : String} {sign : Sign} {cs : List Char} {magnitude : Nat} {int : ℤ}

/-! ## Digits read as a decimal -/

theorem digits_decimal (written : text.toList = sign.chars ++ cs) (nonempty : cs ≠ [])
    (digits : Spells 10 cs magnitude) :
    WritesDecimal text ⟨decide (sign = .minus), magnitude, 0⟩ := by
  rw [← List.append_nil cs] at written
  exact .intro sign written (.whole nonempty digits) .absent

/-- Digits alone are read as no floating-point number. They are refused as too large a whole number,
or, from the least infinite magnitude on, as no number at all. -/
theorem readFloat_digits (written : text.toList = sign.chars ++ cs) (nonempty : cs ≠ [])
    (digits : Spells 10 cs magnitude) : Numeral.readFloat text =
      .error (if magnitude < leastInfinite then .integerOverflow text
        else .illegalNumber text) := by
  have whole := digits_whole written (spells_digits digits le_rfl)
  rw [Numeral.readFloat, read_decimal.mpr (digits_decimal written nonempty digits)]
  dsimp only [Binary64.ofText]
  by_cases small : magnitude < leastInfinite
  · obtain ⟨units, finite⟩ := ofDecimal_finite (decide (sign = .minus)) small
    rw [finite, if_pos small, whole]
    rfl
  · rw [ofDecimal_infinite _ (not_lt.mp small), if_neg small]

/-! ## Plain spellings -/

/-- Without a plus sign a whole number has a form just where it lies in one of the two ranges. -/
theorem fits_iff (unsigned : sign ≠ .plus) (magnitude : Nat) :
    FitsSigned (sign.apply magnitude) ∨ FitsUnsigned sign (sign.apply magnitude) ↔
      -2 ^ 63 ≤ sign.apply magnitude ∧ sign.apply magnitude < 2 ^ 64 := by
  cases sign with
  | none =>
    simp only [FitsSigned, FitsUnsigned, Sign.apply, true_and]
    omega
  | plus => exact absurd rfl unsigned
  | minus =>
    simp only [FitsSigned, FitsUnsigned, Sign.apply, reduceCtorEq, false_and, or_false]
    omega

theorem plain_writes (plain : Plain text int) : ∃ sign, Writes sign text int ∧
    (FitsSigned int ∨ FitsUnsigned sign int ↔ -2 ^ 63 ≤ int ∧ int < 2 ^ 64) := by
  cases plain with
  | @intro cs magnitude sign unsigned written nonempty leading digits =>
    have spelled : Unsigned cs magnitude :=
      .decimal nonempty (fun zero => absurd zero leading) digits
    exact ⟨sign, ⟨cs, magnitude, written, spelled, rfl⟩, fits_iff unsigned magnitude⟩

theorem plain_accepted (plain : Plain text int) (fits : -2 ^ 63 ≤ int ∧ int < 2 ^ 64) :
    ∃ numeral, Numeral.read text = .ok numeral := by
  obtain ⟨sign, writes, range⟩ := plain_writes plain
  exact (writes_read writes).succeeds (range.mpr fits)

/-- Where a whole number fits into no form, its text is tried as a floating-point number. -/
theorem read_unfit (writes : Writes sign text int)
    (unfit : ¬ (FitsSigned int ∨ FitsUnsigned sign int)) :
    Numeral.read text = Numeral.readFloat text := by
  rw [← signed_isSome writes, ← unsigned_isSome writes, not_or, Option.not_isSome_iff_eq_none,
    Option.not_isSome_iff_eq_none] at unfit
  exact read_out_of_range unfit.1 unfit.2

theorem natAbs_apply (sign : Sign) (magnitude : Nat) :
    (sign.apply magnitude).natAbs = magnitude := by
  cases sign with
  | none | plus => exact Int.natAbs_natCast magnitude
  | minus => exact (Int.natAbs_neg _).trans (Int.natAbs_natCast magnitude)

theorem plain_refused (plain : Plain text int) (unfit : ¬ (-2 ^ 63 ≤ int ∧ int < 2 ^ 64)) :
    Numeral.read text =
      .error (if int.natAbs < leastInfinite then .integerOverflow text
        else .illegalNumber text) := by
  obtain ⟨sign, writes, range⟩ := plain_writes plain
  rw [read_unfit writes (mt range.mp unfit)]
  cases plain with
  | intro sign unsigned written nonempty leading digits =>
    rw [natAbs_apply, readFloat_digits written nonempty digits]

/-- What reading comes to where the text writes the whole number plainly. -/
structure FollowsSize (text : String) (int : ℤ) : Prop where
  accepted : (∃ numeral, Numeral.read text = .ok numeral) ↔ -2 ^ 63 ≤ int ∧ int < 2 ^ 64
  overflow : Numeral.read text = .error (.integerOverflow text) ↔
    (int < -2 ^ 63 ∨ 2 ^ 64 ≤ int) ∧ int.natAbs < leastInfinite
  illegal : Numeral.read text = .error (.illegalNumber text) ↔ leastInfinite ≤ int.natAbs

/-- **Whole numbers are refused by their size.** A plain spelling is read just where its number fits
into 64 bits. The others overflow, unless they are too large even for a floating-point number. -/
theorem refusal_follows_size (text : String) (int : ℤ) (plain : Plain text int) :
    FollowsSize text int := by
  have finite := pow_lt_leastInfinite
  by_cases fits : -2 ^ 63 ≤ int ∧ int < 2 ^ 64
  · obtain ⟨numeral, ok⟩ := plain_accepted plain fits
    have read (fault : LiteralFault) : Numeral.read text ≠ .error fault := by
      rw [ok]
      exact nofun
    exact ⟨iff_of_true ⟨numeral, ok⟩ fits, iff_of_false (read _) (by omega),
      iff_of_false (read _) (by omega)⟩
  · have read := plain_refused plain fits
    have refused : ¬ ∃ numeral, Numeral.read text = .ok numeral := by
      rintro ⟨numeral, ok⟩
      rw [read] at ok
      cases ok
    by_cases small : int.natAbs < leastInfinite
    · rw [if_pos small] at read
      exact ⟨iff_of_false refused fits, iff_of_true read (by omega),
        iff_of_false (by rw [read]; exact nofun) (by omega)⟩
    · rw [if_neg small] at read
      exact ⟨iff_of_false refused fits, iff_of_false (by rw [read]; exact nofun) (by omega),
        iff_of_true read (by omega)⟩

/-- The least whole number that is too large for both forms. -/
theorem refusal_follows_size_least : Plain "18446744073709551616" (2 ^ 64) ∧
    Numeral.read "18446744073709551616" = .error (.integerOverflow "18446744073709551616") := by
  have plain : Plain "18446744073709551616" (2 ^ 64) :=
    .intro .none (by decide) rfl (by decide) (by decide) (digits_iff.mp (by decide +kernel))
  exact ⟨plain, (refusal_follows_size _ _ plain).overflow.mpr
    ⟨by decide, Nat.lt_trans (by decide) pow_lt_leastInfinite⟩⟩

/-! ## Powers of ten -/

/-- A one with so many zeros behind it. -/
def powerText (zeros : Nat) : String := String.ofList ('1' :: List.replicate zeros '0')

theorem spells_zeros (zeros : Nat) : Spells 10 (List.replicate zeros '0') 0 := by
  induction zeros with
  | zero => exact .nil
  | succ zeros ih =>
    have zero := Spells.cons (by decide : ('0', 0) ∈ digitTable) (by decide) ih
    rwa [Nat.zero_mul, Nat.add_zero] at zero

theorem power_plain (zeros : Nat) : Plain (powerText zeros) (10 ^ zeros) := by
  have digits : Spells 10 ('1' :: List.replicate zeros '0') (10 ^ zeros) := by
    have one := Spells.cons (by decide : ('1', 1) ∈ digitTable) (by decide) (spells_zeros zeros)
    rwa [List.length_replicate, Nat.one_mul, Nat.add_zero] at one
  have plain : Plain (powerText zeros) (Sign.none.apply (10 ^ zeros)) :=
    .intro .none (by decide) String.toList_ofList (by simp) (by simp) digits
  rwa [Sign.apply, Nat.cast_pow, Nat.cast_ofNat] at plain

/-- A one with 309 zeros is a whole number that fits into no form, and yet it does not overflow. -/
theorem vast_integer_illegal : Plain (powerText 309) (10 ^ 309) ∧ ¬ (10 ^ 309 : ℤ) < 2 ^ 64 ∧
    Numeral.read (powerText 309) = .error (.illegalNumber (powerText 309)) := by
  have large : ¬ (10 ^ 309 : ℤ) < 2 ^ 64 := by decide +kernel
  have infinite : ¬ (10 ^ 309 : ℤ).natAbs < leastInfinite := by decide +kernel
  refine ⟨power_plain 309, large, ?_⟩
  rw [plain_refused (power_plain 309) fun fits => large fits.2, if_neg infinite]

end ResourceQuery.IntegerOverflow
