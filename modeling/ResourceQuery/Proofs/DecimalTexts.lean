import ResourceQuery.Proofs.IntegerSpellings
import ResourceQuery.Proofs.LexemeSpelling

/-! Decimals as texts: digits with at most one point, an exponent that may follow them, and a sign
that may stand before them. The text alone says which decimal it writes, digit by digit. Reading
finds exactly the written decimals (`decimal_iff`), and a literal that is no whole number is read if
and only if it writes a decimal, has a point or the letter of an exponent, and is not too large for
any floating-point number (`readFloat_iff`). -/

namespace ResourceQuery.DecimalTexts
open Number IntegerSpellings LexemeSpelling

/-! ## Written decimals -/

/-- Digits with at most one point: the number that they spell without it, and how many of them stand
behind it. -/
inductive Pointed : List Char → Nat → Nat → Prop where
  | whole (nonempty : cs ≠ []) (digits : Spells 10 cs value) : Pointed cs value 0
  | point (nonempty : whole ++ fraction ≠ []) (digits : Spells 10 (whole ++ fraction) value) :
      Pointed (whole ++ '.' :: fraction) value fraction.length

/-- The power of ten that stands behind the digits, if any does. -/
inductive Scaled : List Char → Int → Prop where
  | absent : Scaled [] 0
  | exponent (letter : c = 'e' ∨ c = 'E') (nonempty : cs ≠ []) (digits : Spells 10 cs value)
      (sign : Sign) : Scaled (c :: (sign.chars ++ cs)) (sign.apply value)

/-- The text writes the decimal. -/
inductive WritesDecimal (text : String) : Decimal → Prop where
  | intro (sign : Sign) (written : text.toList = sign.chars ++ (row ++ suffix))
      (pointed : Pointed row digits places) (scaled : Scaled suffix exponent) :
      WritesDecimal text ⟨decide (sign = .minus), digits, exponent - places⟩

/-! ## Reading them -/

variable {cs row suffix whole fraction : List Char} {value places : Nat} {exponent : Int}

theorem exponent_iff : exponent? cs = some exponent ↔ ∃ (sign : Sign) (digits : List Char)
    (value : Nat), cs = sign.chars ++ digits ∧ digits ≠ [] ∧ Spells 10 digits value ∧
      exponent = sign.apply value := by
  have split : exponent? cs = some exponent ↔ (splitSign cs).2 ≠ [] ∧
      ∃ value, Spells 10 (splitSign cs).2 value ∧
        (if (splitSign cs).1 then -(value : Int) else value) = exponent := by
    simp [exponent?, Option.bind_eq_some_iff, ← digits_iff]
  rw [split]
  constructor
  · rintro ⟨nonempty, value, digits, rfl⟩
    obtain ⟨sign, whole, minus⟩ := splitSign_cases cs
    exact ⟨sign, _, value, whole, nonempty, digits, by rw [minus]; cases sign <;> rfl⟩
  · rintro ⟨sign, digits, value, rfl, nonempty, spells, rfl⟩
    obtain ⟨c, rest, rfl, digit⟩ := digit_head spells nonempty
    rw [splitSign_chars sign (by rintro head; cases head; cases digit)
      (by rintro head; cases head; cases digit)]
    exact ⟨nonempty, value, spells, by cases sign <;> rfl⟩

theorem scale_iff : scale? cs = some exponent ↔ Scaled cs exponent := by
  constructor
  · intro read
    unfold scale? at read
    split at read
    · cases read
      exact .absent
    · obtain ⟨sign, digits, value, rfl, nonempty, spells, rfl⟩ := exponent_iff.mp read
      exact .exponent (.inl rfl) nonempty spells sign
    · obtain ⟨sign, digits, value, rfl, nonempty, spells, rfl⟩ := exponent_iff.mp read
      exact .exponent (.inr rfl) nonempty spells sign
    · cases read
  · intro scaled
    cases scaled with
    | absent => rfl
    | exponent letter nonempty digits sign =>
      have read := exponent_iff.mpr ⟨sign, _, _, rfl, nonempty, digits, rfl⟩
      rcases letter with rfl | rfl <;> exact read

/-- No digit and no point follows the digits of a decimal. -/
theorem scaled_head (scaled : Scaled suffix exponent) :
    ∀ c, suffix.head? = some c → c.isDigit = false ∧ c ≠ '.' := by
  intro c head
  cases scaled with
  | absent => cases head
  | exponent letter nonempty digits sign =>
    cases head
    rcases letter with rfl | rfl <;> decide

/-- What is read from a text whose digits have been split at the point. -/
theorem decimal_split {negative : Bool} {decimal : Decimal}
    (split : splitPoint (cs.dropWhile Char.isDigit) = (fraction, suffix)) :
    decimal? negative cs = some decimal ↔ cs.takeWhile Char.isDigit ++ fraction ≠ [] ∧
      ∃ value, Spells 10 (cs.takeWhile Char.isDigit ++ fraction) value ∧
      ∃ exponent, Scaled suffix exponent ∧
        decimal = ⟨negative, value, exponent - fraction.length⟩ := by
  simp only [decimal?, split, ← digits_iff, ← scale_iff]
  by_cases none : cs.takeWhile Char.isDigit ++ fraction = []
  · simp [none]
  · rw [if_neg (by rwa [List.isEmpty_iff])]
    simp [Option.bind_eq_some_iff, none, @eq_comm _ decimal]

theorem splitPoint_cases (cs : List Char) : splitPoint cs = ([], cs) ∨ ∃ rest, cs = '.' :: rest ∧
    splitPoint cs = (rest.takeWhile Char.isDigit, rest.dropWhile Char.isDigit) := by
  unfold splitPoint
  split
  · exact .inr ⟨_, rfl, rfl⟩
  · exact .inl rfl

/-- A row of digits with at most one point is split at the point. -/
theorem pointed_split (pointed : Pointed row value places) (scaled : Scaled suffix exponent) :
    ∃ fraction, splitPoint ((row ++ suffix).dropWhile Char.isDigit) = (fraction, suffix) ∧
      (row ++ suffix).takeWhile Char.isDigit ++ fraction ≠ [] ∧
      Spells 10 ((row ++ suffix).takeWhile Char.isDigit ++ fraction) value ∧
      fraction.length = places := by
  have after := scaled_head scaled
  cases pointed with
  | whole nonempty digits =>
    obtain ⟨taken, dropped⟩ := takeWhile_stopped (spells_digits digits (by decide))
      fun c head => (after c head).1
    have unsplit : splitPoint suffix = ([], suffix) := by
      rcases splitPoint_cases suffix with unsplit | ⟨rest, rfl, -⟩
      · exact unsplit
      · exact absurd rfl (after _ rfl).2
    rw [taken, dropped]
    exact ⟨[], unsplit, by simpa using nonempty, by simpa using digits, rfl⟩
  | @point whole fraction _ nonempty digits =>
    have all := spells_digits digits (by decide)
    obtain ⟨taken, dropped⟩ := takeWhile_stopped
      (fun c member => all c (List.mem_append_left fraction member))
      fun c (head : ('.' :: (fraction ++ suffix)).head? = some c) => by cases head; rfl
    obtain ⟨taken', dropped'⟩ := takeWhile_stopped
      (fun c member => all c (List.mem_append_right whole member))
      fun c head => (after c head).1
    rw [List.append_assoc, List.cons_append, taken, dropped]
    exact ⟨fraction, Prod.ext taken' dropped', nonempty, digits, rfl⟩

/-- The parts that a text was split into make up the text. -/
theorem split_pointed (split : splitPoint (cs.dropWhile Char.isDigit) = (fraction, suffix))
    (nonempty : cs.takeWhile Char.isDigit ++ fraction ≠ [])
    (digits : Spells 10 (cs.takeWhile Char.isDigit ++ fraction) value) :
    ∃ row, cs = row ++ suffix ∧ Pointed row value fraction.length := by
  have whole : cs.takeWhile Char.isDigit ++ cs.dropWhile Char.isDigit = cs :=
    List.takeWhile_append_dropWhile
  rcases splitPoint_cases (cs.dropWhile Char.isDigit) with unsplit | ⟨rest, behind, point⟩
  · cases split.symm.trans unsplit
    rw [List.append_nil] at nonempty digits
    exact ⟨_, whole.symm, .whole nonempty digits⟩
  · cases split.symm.trans point
    refine ⟨_, ?_, .point nonempty digits⟩
    rw [List.append_assoc, List.cons_append, List.takeWhile_append_dropWhile, ← behind, whole]

/-- What is read from a text without a sign is what the text writes. -/
theorem decimal_iff {negative : Bool} {decimal : Decimal} :
    decimal? negative cs = some decimal ↔ ∃ row suffix value places exponent,
      cs = row ++ suffix ∧ Pointed row value places ∧ Scaled suffix exponent ∧
        decimal = ⟨negative, value, exponent - (places : Nat)⟩ := by
  constructor
  · intro read
    obtain ⟨nonempty, value, digits, exponent, scaled, same⟩ := (decimal_split rfl).mp read
    obtain ⟨row, whole, pointed⟩ := split_pointed rfl nonempty digits
    exact ⟨row, _, value, _, exponent, whole, pointed, scaled, same⟩
  · rintro ⟨row, suffix, value, places, exponent, rfl, pointed, scaled, rfl⟩
    obtain ⟨fraction, split, nonempty, digits, rfl⟩ := pointed_split pointed scaled
    exact (decimal_split split).mpr ⟨nonempty, value, digits, exponent, scaled, rfl⟩

/-! ## Signs and words -/

/-- A decimal starts with a digit or the point, and so neither with a sign nor with a letter. -/
theorem pointed_head (pointed : Pointed row value places) :
    ∃ c rest, row = c :: rest ∧ (c.isDigit = true ∨ c = '.') := by
  cases pointed with
  | whole nonempty digits =>
    obtain ⟨c, rest, same, digit⟩ := digit_head digits nonempty
    exact ⟨c, rest, same, .inl digit⟩
  | @point whole fraction _ nonempty digits =>
    cases whole with
    | nil => exact ⟨'.', fraction, rfl, .inr rfl⟩
    | cons c whole => exact ⟨c, _, rfl, .inl (spells_digits digits (by decide) c (by simp))⟩

theorem splitSign_pointed (sign : Sign) (pointed : Pointed row value places) :
    splitSign (sign.chars ++ (row ++ suffix)) = (decide (sign = .minus), row ++ suffix) := by
  obtain ⟨c, rest, rfl, start⟩ := pointed_head pointed
  apply splitSign_chars <;> (intro head; cases head; rcases start with digit | point)
  all_goals first | cases digit | cases point

/-- The words for what is no decimal, in small letters. -/
def numberWords : List String := ["inf", "infinity", "nan"]

/-- The text without its sign, in small letters. -/
def lowered (cs : List Char) : String := String.ofList ((splitSign cs).2.map Char.toLower)

theorem toLower_digit {c : Char} (digit : c.isDigit = true) : c.toLower = c := by
  unfold Char.toLower
  split
  · rename_i capital
    simp only [Char.isDigit, Bool.and_eq_true, decide_eq_true_eq] at digit
    have high := UInt32.le_iff_toNat_le.mp capital.1
    have low := UInt32.le_iff_toNat_le.mp digit.2
    simp at high low
    omega
  · rfl

theorem read_unworded (other : lowered cs ∉ numberWords) : FloatText.read? cs =
    (decimal? (splitSign cs).1 (splitSign cs).2).map .decimal := by
  simp only [numberWords, lowered, List.mem_cons, List.not_mem_nil, or_false, not_or] at other
  simp only [FloatText.read?, other, or_self, ↓reduceIte]

theorem read_worded (word : lowered cs ∈ numberWords) (decimal : Decimal) :
    FloatText.read? cs ≠ some (.decimal decimal) := by
  simp only [numberWords, lowered, List.mem_cons, List.not_mem_nil, or_false] at word
  unfold FloatText.read?
  dsimp only
  split
  · simp
  split
  · simp
  · rename_i infinite nan
    exact (word.elim (fun inf => infinite (.inl inf)) fun others =>
      others.elim (fun infinity => infinite (.inr infinity)) nan).elim

/-- A text is read as the decimal that it writes. -/
theorem read_decimal {text : String} {decimal : Decimal} :
    FloatText.read? text.toList = some (.decimal decimal) ↔ WritesDecimal text decimal := by
  constructor
  · intro read
    have other : lowered text.toList ∉ numberWords := fun word => read_worded word decimal read
    rw [read_unworded other] at read
    obtain ⟨_, found, same⟩ := Option.map_eq_some_iff.mp read
    cases same
    obtain ⟨row, suffix, value, places, exponent, whole, pointed, scaled, rfl⟩ :=
      decimal_iff.mp found
    obtain ⟨sign, written, minus⟩ := splitSign_cases text.toList
    rw [minus]
    exact .intro sign (whole ▸ written) pointed scaled
  · intro writes
    cases writes with
    | @intro row suffix value places exponent sign written pointed scaled =>
      have split : splitSign (sign.chars ++ (row ++ suffix)) = _ := splitSign_pointed sign pointed
      have other : lowered text.toList ∉ numberWords := by
        obtain ⟨c, rest, rfl, start⟩ := pointed_head pointed
        intro word
        have heads : ∀ name ∈ numberWords,
            name.toList.head?.all (fun first => !first.isDigit && first != '.') = true := by decide
        have first := heads _ word
        rw [lowered, written, split] at first
        simp only [String.toList_ofList, List.cons_append, List.map_cons, List.head?_cons,
          Option.all_some] at first
        rcases start with digit | rfl
        · rw [toLower_digit digit, digit] at first
          cases first
        · cases first
      rw [read_unworded other, written, split,
        decimal_iff.mpr ⟨row, suffix, value, places, exponent, rfl, pointed, scaled, rfl⟩]
      rfl

/-- The text has a point or the letter of an exponent. -/
def Fractional (text : String) : Prop := '.' ∈ text.toList ∨ 'e' ∈ text.toList ∨ 'E' ∈ text.toList

theorem isFractional_iff {text : String} :
    Numeral.isFractional text = true ↔ Fractional text := isFractional_marks

/-- None of the words for what is no number has a point or the letter of an exponent. -/
theorem word_whole {text : String} (word : lowered text.toList ∈ numberWords) :
    ¬ Fractional text := by
  have plain : ∀ name ∈ numberWords, '.' ∉ name.toList ∧ 'e' ∉ name.toList := by decide
  obtain ⟨sign, written, -⟩ := splitSign_cases text.toList
  have unsigned {c : Char} (member : c ∈ text.toList) (mark : c = '.' ∨ c = 'e' ∨ c = 'E') :
      c.toLower ∈ (lowered text.toList).toList := by
    rw [lowered, String.toList_ofList]
    rw [written] at member
    rcases List.mem_append.mp member with before | behind
    · exfalso
      revert before
      cases sign <;> rcases mark with rfl | rfl | rfl <;> decide
    · exact List.mem_map_of_mem behind
  rintro (point | small | capital)
  · exact (plain _ word).1 (unsigned point (.inl rfl))
  · exact (plain _ word).2 (unsigned small (.inr (.inl rfl)))
  · exact (plain _ word).2 (unsigned capital (.inr (.inr rfl)))

/-- The literals that are no whole numbers are the decimals with a point or an exponent, as long as
they are not too large. -/
theorem readFloat_iff {text : String} {numeral : Numeral} :
    Numeral.readFloat text = .ok numeral ↔ Fractional text ∧ ∃ decimal, WritesDecimal text decimal ∧
      (∀ negative, Binary64.ofDecimal decimal ≠ .infinite negative) ∧
        numeral = Numeral.ofFloat text (Binary64.ofDecimal decimal) := by
  rw [← isFractional_iff]
  constructor
  · intro ok
    have fraction : Numeral.isFractional text = true := by
      by_contra whole
      obtain ⟨fault, refused⟩ := readFloat_whole (Bool.eq_false_iff.mpr whole)
      cases ok.symm.trans refused
    have read := read_unworded fun word => word_whole word (isFractional_iff.mp fraction)
    unfold Numeral.readFloat at ok
    cases found : decimal? (splitSign text.toList).1 (splitSign text.toList).2 with
    | none =>
      rw [read, found] at ok
      cases ok
    | some decimal =>
      rw [found] at read
      rw [read] at ok
      dsimp only [Option.map_some] at ok
      split at ok
      · cases ok
      · rename_i finite
        rw [if_pos fraction] at ok
        cases ok
        exact ⟨fraction, decimal, read_decimal.mp read,
          fun negative => finite decimal negative rfl, rfl⟩
  · rintro ⟨fraction, decimal, writes, finite, rfl⟩
    unfold Numeral.readFloat
    rw [read_decimal.mpr writes]
    dsimp only
    split
    · rename_i infinite
      exact absurd infinite (finite _)
    · rw [if_pos fraction]
      rfl

end ResourceQuery.DecimalTexts
