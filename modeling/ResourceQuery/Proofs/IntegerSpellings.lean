import Mathlib.Algebra.Order.Ring.Int
import ResourceQuery.Proofs.GrammarTrees

/-! Spellings of whole numbers, and what reading them comes to. A spelling is said to have a value
by the place that each digit stands at, and by what stands before the digits; nothing in that
mentions how numerals are read. Reading finds the value of every spelling (`integer_iff`), keeps it
in the forms that it fits into and in no other, and a text that is no spelling gets such a form only
if it is written as a fraction (`integer_read_exactly`). -/

namespace ResourceQuery.IntegerSpellings
open Number

/-! ## Spellings -/

/-- The digits of all bases and what each is worth. -/
def digitTable : List (Char × Nat) :=
  [('0', 0), ('1', 1), ('2', 2), ('3', 3), ('4', 4), ('5', 5), ('6', 6), ('7', 7), ('8', 8),
    ('9', 9), ('a', 10), ('b', 11), ('c', 12), ('d', 13), ('e', 14), ('f', 15), ('A', 10),
    ('B', 11), ('C', 12), ('D', 13), ('E', 14), ('F', 15)]

/-- The row of digits has the sum of what each is worth at its place. -/
inductive Spells (base : Nat) : List Char → Nat → Prop where
  | nil : Spells base [] 0
  | cons (digit : (c, worth) ∈ digitTable) (small : worth < base) (others : Spells base cs rest) :
      Spells base (c :: cs) (worth * base ^ cs.length + rest)

/-- The letters that may stand between a zero and the digits of a base. -/
inductive Marks : Char → Nat → Prop where
  | lowerHexadecimal : Marks 'x' 16
  | upperHexadecimal : Marks 'X' 16
  | lowerOctal : Marks 'o' 8
  | upperOctal : Marks 'O' 8
  | lowerBinary : Marks 'b' 2
  | upperBinary : Marks 'B' 2

/-- The ways to write a whole number without a sign, and the number that each writes. -/
inductive Unsigned : List Char → Nat → Prop where
  | marked (mark : Marks c base) (nonempty : cs ≠ []) (digits : Spells base cs value) :
      Unsigned ('0' :: c :: cs) value
  /-- A zero in front of other digits makes them octal. -/
  | octal (nonempty : cs ≠ []) (digits : Spells 8 cs value) : Unsigned ('0' :: cs) value
  | decimal (nonempty : cs ≠ []) (plain : cs.head? = some '0' → cs = ['0'])
      (digits : Spells 10 cs value) : Unsigned cs value

/-- What may stand in front of an unsigned spelling. -/
inductive Sign where
  | none
  | plus
  | minus
  deriving DecidableEq

def Sign.chars : Sign → List Char
  | none => []
  | plus => ['+']
  | minus => ['-']

def Sign.apply : Sign → Nat → Int
  | none, value | plus, value => value
  | minus, value => -value

/-- The text is a sign and an unsigned spelling, and writes the number. -/
def Writes (sign : Sign) (text : String) (value : Int) : Prop :=
  ∃ cs magnitude, text.toList = sign.chars ++ cs ∧ Unsigned cs magnitude ∧
    value = sign.apply magnitude

/-! ## Digits -/

variable {base value worth : Nat} {c : Char} {cs : List Char}

/-- Only characters of ASCII are digits. -/
theorem hexValue_ascii (found : hexValue? c = some worth) : c.toNat < 128 := by
  have code : c.toNat = c.val.toNat := rfl
  have ends : 'f'.val.toNat = 102 ∧ 'F'.val.toNat = 70 ∧ '9'.val.toNat = 57 := ⟨rfl, rfl, rfl⟩
  unfold hexValue? at found
  delta Char.isDigit at found
  simp only [Bool.and_eq_true, decide_eq_true_eq, UInt32.le_iff_toNat_le, ge_iff_le] at found
  split at found
  · omega
  · split at found
    · rename_i within
      have := UInt32.le_iff_toNat_le.mp within.2
      omega
    · split at found
      · rename_i within
        have := UInt32.le_iff_toNat_le.mp within.2
        omega
      · cases found

theorem hexValue_iff : hexValue? c = some worth ↔ (c, worth) ∈ digitTable := by
  constructor
  · intro found
    have all : ∀ n : Fin 128,
        (hexValue? (Char.ofNat n)).all fun worth => (Char.ofNat n, worth) ∈ digitTable := by
      decide +kernel
    have here := all ⟨c.toNat, hexValue_ascii found⟩
    simpa [Char.ofNat_toNat, found] using here
  · intro listed
    have all : ∀ entry ∈ digitTable, hexValue? entry.1 = some entry.2 := by decide
    exact all _ listed

theorem digit_iff : digit? base c = some worth ↔ (c, worth) ∈ digitTable ∧ worth < base := by
  rw [digit?, Option.filter_eq_some_iff, hexValue_iff, decide_eq_true_eq]

/-- The digits that have been read already count once more for each digit behind them. -/
theorem digits_from (start : Nat) : cs.foldlM (fun value c => (digit? base c).map fun digit =>
      value * base + digit) start = some value ↔
    ∃ rest, Spells base cs rest ∧ value = start * base ^ cs.length + rest := by
  induction cs generalizing start with
  | nil =>
    constructor
    · intro same
      cases same
      exact ⟨0, .nil, by simp⟩
    · rintro ⟨rest, spells, rfl⟩
      cases spells
      simp
  | cons c cs ih =>
    rw [List.foldlM_cons]
    cases found : digit? base c with
    | none =>
      constructor
      · intro none
        cases none
      · rintro ⟨rest, spells, -⟩
        cases spells with
        | cons digit small others =>
          rw [digit_iff.mpr ⟨digit, small⟩] at found
          cases found
    | some worth =>
      have step : (some worth).map (fun digit => start * base + digit) =
          some (start * base + worth) := rfl
      rw [step]
      refine (ih (start * base + worth)).trans ?_
      obtain ⟨digit, small⟩ := digit_iff.mp found
      have shift (rest : Nat) : (start * base + worth) * base ^ cs.length + rest =
          start * base ^ (cs.length + 1) + (worth * base ^ cs.length + rest) := by
        rw [Nat.add_mul, Nat.mul_assoc, ← Nat.pow_succ', Nat.add_assoc]
      constructor
      · rintro ⟨rest, others, rfl⟩
        exact ⟨_, .cons digit small others, shift rest⟩
      · rintro ⟨_, spells, rfl⟩
        cases spells with
        | @cons _ worth' _ rest digit' small' others =>
          obtain rfl : worth = worth' :=
            Option.some.inj (found.symm.trans (digit_iff.mpr ⟨digit', small'⟩))
          exact ⟨rest, others, (shift rest).symm⟩

theorem digits_iff : digits? base cs = some value ↔ Spells base cs value := by
  have here := @digits_from base value cs 0
  simpa [digits?] using here

/-- A row of so many digits is worth less than the power of the base. -/
theorem spells_lt (digits : Spells base cs value) : value < base ^ cs.length := by
  induction digits with
  | nil => exact Nat.one_pos
  | @cons c worth cs rest digit small others ih =>
    calc worth * base ^ cs.length + rest
        < worth * base ^ cs.length + base ^ cs.length := Nat.add_lt_add_left ih _
      _ = (worth + 1) * base ^ cs.length := (Nat.succ_mul ..).symm
      _ ≤ base * base ^ cs.length := Nat.mul_le_mul_right _ small
      _ = base ^ (cs.length + 1) := Nat.pow_succ'.symm

/-- A row of digits of a base that has no letters. -/
theorem spells_digits (digits : Spells base cs value) (small : base ≤ 10) :
    ∀ c ∈ cs, c.isDigit = true := by
  have all : ∀ entry ∈ digitTable, entry.2 < 10 → entry.1.isDigit = true := by decide
  induction digits with
  | nil => exact fun c member => absurd member List.not_mem_nil
  | cons digit bound others ih => exact List.forall_mem_cons.mpr ⟨all _ digit (by omega), ih⟩

theorem digit_head (digits : Spells 10 cs value) (nonempty : cs ≠ []) :
    ∃ c rest, cs = c :: rest ∧ c.isDigit = true := by
  obtain ⟨c, rest, rfl⟩ := List.exists_cons_of_ne_nil nonempty
  exact ⟨c, rest, rfl, spells_digits digits (by decide) c (List.mem_cons_self ..)⟩

/-! ## Unsigned spellings -/

/-- No letter that announces a base is an octal digit. -/
theorem mark_other (mark : Marks c base) : ∀ worth < 8, (c, worth) ∉ digitTable := by
  cases mark <;> decide

theorem splitBase_mark (mark : Marks c base) (cs : List Char) :
    splitBase ('0' :: c :: cs) = (base, cs) := by
  cases mark <;> rfl

theorem splitBase_unmarked (unmarked : ∀ base, ¬ Marks c base) (cs : List Char) :
    splitBase ('0' :: c :: cs) = (8, c :: cs) := by
  unfold splitBase
  split
  all_goals rename_i same
  all_goals first
    | cases same; rfl
    | cases same; exact absurd (by constructor) (unmarked _)
    | exact absurd rfl (same c cs)

theorem splitBase_decimal (plain : cs.head? = some '0' → cs = ['0']) :
    splitBase cs = (10, cs) := by
  unfold splitBase
  split <;> first | rfl | cases plain rfl

theorem zero_cases (cs : List Char) :
    (cs.head? = some '0' → cs = ['0']) ∨ ∃ c rest, cs = '0' :: c :: rest := by
  match cs with
  | [] => exact .inl fun zero => by cases zero
  | [c] => exact .inl fun zero => by cases zero; rfl
  | d :: c :: rest =>
    by_cases zero : d = '0'
    · exact .inr ⟨c, rest, by rw [zero]⟩
    · exact .inl fun head => absurd (Option.some.inj head) zero

/-- A spelling without a sign is read as the number that it writes, and nothing else is read. -/
theorem magnitude_iff : magnitude? cs = some value ↔ Unsigned cs value := by
  have read {base : Nat} {digits : List Char} (split : splitBase cs = (base, digits)) :
      magnitude? cs = some value ↔ digits ≠ [] ∧ Spells base digits value := by
    rw [magnitude?, split, ← digits_iff]
    simp
  constructor
  · intro found
    rcases zero_cases cs with plain | ⟨c, rest, rfl⟩
    · obtain ⟨nonempty, digits⟩ := (read (splitBase_decimal plain)).mp found
      exact .decimal nonempty plain digits
    by_cases marked : ∃ base, Marks c base
    · obtain ⟨base, mark⟩ := marked
      obtain ⟨nonempty, digits⟩ := (read (splitBase_mark mark rest)).mp found
      exact .marked mark nonempty digits
    · have split := splitBase_unmarked (not_exists.mp marked) rest
      obtain ⟨nonempty, digits⟩ := (read split).mp found
      exact .octal nonempty digits
  · intro unsigned
    cases unsigned with
    | @marked c base cs value mark nonempty digits =>
      exact (read (splitBase_mark mark cs)).mpr ⟨nonempty, digits⟩
    | @octal cs value nonempty digits =>
      obtain ⟨c, cs, rfl⟩ := List.exists_cons_of_ne_nil nonempty
      have unmarked (base : Nat) : ¬ Marks c base := by
        intro mark
        cases digits with
        | cons digit small others => exact mark_other mark _ small digit
      exact (read (splitBase_unmarked unmarked cs)).mpr ⟨nonempty, digits⟩
    | decimal nonempty plain digits =>
      exact (read (splitBase_decimal plain)).mpr ⟨nonempty, digits⟩

/-! ## Signs -/

/-- An unsigned spelling starts with a digit. -/
theorem unsigned_head (unsigned : Unsigned cs value) :
    ∃ c rest, cs = c :: rest ∧ c.isDigit = true := by
  cases unsigned with
  | marked mark nonempty digits => exact ⟨_, _, rfl, rfl⟩
  | octal nonempty digits => exact ⟨_, _, rfl, rfl⟩
  | decimal nonempty plain digits => exact digit_head digits nonempty

/-- What does not start with a sign is kept whole behind one. -/
theorem splitSign_chars (sign : Sign) (minus : cs.head? ≠ some '-') (plus : cs.head? ≠ some '+') :
    splitSign (sign.chars ++ cs) = (decide (sign = .minus), cs) := by
  cases sign with
  | plus | minus => rfl
  | none =>
    unfold Sign.chars splitSign
    split
    · rename_i same
      rw [List.nil_append] at same
      exact absurd (congrArg List.head? same) minus
    · rename_i same
      rw [List.nil_append] at same
      exact absurd (congrArg List.head? same) plus
    · rfl

theorem splitSign_unsigned (sign : Sign) (unsigned : Unsigned cs value) :
    splitSign (sign.chars ++ cs) = (decide (sign = .minus), cs) := by
  obtain ⟨c, rest, rfl, digit⟩ := unsigned_head unsigned
  apply splitSign_chars <;> (intro head; cases head; cases digit)

variable {text : String} {sign : Sign} {int : Int}

theorem splitSign_cases (cs : List Char) :
    ∃ sign : Sign, cs = sign.chars ++ (splitSign cs).2 ∧
      (splitSign cs).1 = decide (sign = .minus) := by
  unfold splitSign
  split
  · exact ⟨.minus, rfl, rfl⟩
  · exact ⟨.plus, rfl, rfl⟩
  · exact ⟨.none, rfl, rfl⟩

/-- A spelling is read as the number that it writes, and nothing else is read. -/
theorem integer_iff : integer? text.toList = some int ↔ ∃ sign, Writes sign text int := by
  have split : integer? text.toList = some int ↔ ∃ magnitude,
      magnitude? (splitSign text.toList).2 = some magnitude ∧
        (if (splitSign text.toList).1 then -(magnitude : Int) else magnitude) = int := by
    simp [integer?, Option.bind_eq_some_iff]
  have applied (sign : Sign) (magnitude : Nat) :
      (if decide (sign = .minus) then -(magnitude : Int) else magnitude) =
        sign.apply magnitude := by
    cases sign <;> rfl
  rw [split]
  constructor
  · rintro ⟨magnitude, read, rfl⟩
    obtain ⟨sign, whole, minus⟩ := splitSign_cases text.toList
    refine ⟨sign, _, magnitude, whole, magnitude_iff.mp read, ?_⟩
    rw [minus, applied]
  · rintro ⟨sign, cs, magnitude, whole, unsigned, rfl⟩
    rw [whole, splitSign_unsigned sign unsigned]
    exact ⟨magnitude, magnitude_iff.mpr unsigned, applied sign magnitude⟩

/-- A sign is no digit, so a signed spelling is no unsigned one. -/
theorem magnitude_signed (writes : Writes sign text int) :
    magnitude? text.toList = if sign = .none then some int.toNat else none := by
  obtain ⟨cs, magnitude, whole, unsigned, rfl⟩ := writes
  cases sign with
  | none =>
    rw [whole]
    exact magnitude_iff.mpr unsigned
  | plus | minus =>
    cases read : magnitude? text.toList with
    | none => rfl
    | some value =>
      obtain ⟨c, rest, same, digit⟩ := unsigned_head (magnitude_iff.mp read)
      rw [whole] at same
      cases same
      cases digit

/-! ## Numerals -/

/-- The number fits into 64 bits with a sign. -/
def FitsSigned (int : Int) : Prop := -2 ^ 63 ≤ int ∧ int < 2 ^ 63

/-- The number is zero, or is written without a sign and fits into 64 bits without one. -/
def FitsUnsigned (sign : Sign) (int : Int) : Prop := int = 0 ∨ sign = .none ∧ int < 2 ^ 64

theorem fitsSigned_iff : fitsSigned int = true ↔ FitsSigned int := by
  simp [fitsSigned, FitsSigned]

theorem signed_iff {form : Int} (writes : Writes sign text int) :
    Numeral.signed? text = some form ↔ FitsSigned int ∧ form = int := by
  rw [Numeral.signed?, integer_iff.mpr ⟨sign, writes⟩, Option.filter_eq_some_iff, fitsSigned_iff,
    Option.some.injEq]
  constructor
  · rintro ⟨rfl, fits⟩
    exact ⟨fits, rfl⟩
  · rintro ⟨fits, rfl⟩
    exact ⟨rfl, fits⟩

theorem unsigned_iff {form : Nat} (writes : Writes sign text int) :
    Numeral.unsigned? text = some form ↔ FitsUnsigned sign int ∧ (form : Int) = int := by
  by_cases zero : int = 0
  · have read : Numeral.signed? text = some 0 :=
      (signed_iff writes).mpr ⟨by rw [zero]; exact ⟨by decide, by decide⟩, zero.symm⟩
    rw [Numeral.unsigned?, if_pos read, Option.some.injEq, zero]
    simp [FitsUnsigned, eq_comm]
  · have other : Numeral.signed? text ≠ some 0 := fun read =>
      zero ((signed_iff writes).mp read).2.symm
    rw [Numeral.unsigned?, if_neg other, magnitude_signed writes]
    obtain ⟨cs, magnitude, whole, unsigned, rfl⟩ := writes
    cases sign with
    | none =>
      have written : Sign.none.apply magnitude = (magnitude : Int) := rfl
      rw [written] at zero ⊢
      rw [if_pos rfl, Option.filter_eq_some_iff, Int.toNat_natCast, Option.some.injEq]
      simp only [fitsUnsigned, FitsUnsigned, Bool.and_eq_true, decide_eq_true_eq, true_and]
      omega
    | plus | minus => simp [FitsUnsigned, zero]

theorem isFractional_marks : Numeral.isFractional text = true ↔
    '.' ∈ text.toList ∨ 'e' ∈ text.toList ∨ 'E' ∈ text.toList := by
  simp only [Numeral.isFractional, List.any_eq_true, Bool.or_eq_true, beq_iff_eq]
  constructor
  · rintro ⟨c, member, (rfl | rfl) | rfl⟩
    · exact .inl member
    · exact .inr (.inl member)
    · exact .inr (.inr member)
  · rintro (point | small | capital)
    · exact ⟨_, point, .inl (.inl rfl)⟩
    · exact ⟨_, small, .inl (.inr rfl)⟩
    · exact ⟨_, capital, .inr rfl⟩

/-- What no decimal point and no exponent is written in has no form but these. -/
theorem readFloat_whole (whole : Numeral.isFractional text = false) :
    ∃ fault, Numeral.readFloat text = .error fault := by
  unfold Numeral.readFloat
  split
  · exact ⟨_, rfl⟩
  · split
    · exact ⟨_, rfl⟩
    · rw [whole]
      exact ⟨_, rfl⟩

theorem digits_whole (written : text.toList = sign.chars ++ cs)
    (digits : ∀ c ∈ cs, c.isDigit = true) : Numeral.isFractional text = false := by
  rw [Numeral.isFractional, written, List.any_append, Bool.or_eq_false_iff]
  refine ⟨by cases sign <;> rfl, ?_⟩
  rw [List.any_eq_false]
  intro c member fraction
  have digit := digits c member
  simp only [Bool.or_eq_true, beq_iff_eq] at fraction
  rcases fraction with (rfl | rfl) | rfl <;> cases digit

/-- No floating-point number has the letter of a base behind a zero. -/
theorem marked_unread (mark : Marks c base) (negative : Bool) (cs : List Char) :
    decimal? negative ('0' :: c :: cs) = none := by
  cases mark <;> rfl

/-- The spelling of a whole number has nothing of a fraction, or no floating-point number is read
from it: where it has the letter of an exponent, another letter is in front of the digits. -/
theorem writes_apart (writes : Writes sign text int) :
    Numeral.isFractional text = false ∨ FloatText.read? text.toList = none := by
  obtain ⟨cs, magnitude, whole, unsigned, -⟩ := writes
  have split := splitSign_unsigned sign unsigned
  cases unsigned with
  | @marked c base digits value mark nonempty spells =>
    have word (name : String) (other : name.toList.head? ≠ some '0') :
        String.ofList (('0' :: c :: digits).map Char.toLower) ≠ name := by
      rintro rfl
      simp at other
    right
    rw [whole, FloatText.read?, split]
    dsimp only
    rw [if_neg, if_neg, marked_unread mark]
    · rfl
    · exact word "nan" (by decide)
    · exact not_or.mpr ⟨word "inf" (by decide), word "infinity" (by decide)⟩
  | octal nonempty spells =>
    exact .inl (digits_whole whole
      (List.forall_mem_cons.mpr ⟨rfl, spells_digits spells (by decide)⟩))
  | decimal nonempty plain spells =>
    exact .inl (digits_whole whole (spells_digits spells (by decide)))

theorem readFloat_writes (writes : Writes sign text int) :
    ∃ fault, Numeral.readFloat text = .error fault := by
  rcases writes_apart writes with whole | unread
  · exact readFloat_whole whole
  · rw [Numeral.readFloat, unread]
    exact ⟨_, rfl⟩

/-- A whole number in range keeps every form that it fits into. -/
theorem read_in_range (range : (Numeral.signed? text).isSome ∨ (Numeral.unsigned? text).isSome) :
    ∃ float, Numeral.read text =
      .ok ⟨text, Numeral.signed? text, Numeral.unsigned? text, some float⟩ := by
  unfold Numeral.read
  cases signed : Numeral.signed? text with
  | some int => exact ⟨_, rfl⟩
  | none =>
    cases unsigned : Numeral.unsigned? text with
    | some uint => exact ⟨_, rfl⟩
    | none => simp [signed, unsigned] at range

theorem read_out_of_range (signed : Numeral.signed? text = none)
    (unsigned : Numeral.unsigned? text = none) : Numeral.read text = Numeral.readFloat text := by
  simp only [Numeral.read, signed, unsigned]

theorem signed_isSome (writes : Writes sign text int) :
    (Numeral.signed? text).isSome ↔ FitsSigned int := by
  simp [Option.isSome_iff_exists, signed_iff writes]

theorem unsigned_isSome (writes : Writes sign text int) :
    (Numeral.unsigned? text).isSome ↔ FitsUnsigned sign int := by
  have natural (fits : FitsUnsigned sign int) : 0 ≤ int := by
    obtain ⟨cs, magnitude, -, -, rfl⟩ := writes
    rcases fits with zero | ⟨rfl, -⟩
    · exact zero.ge
    · exact Int.natCast_nonneg magnitude
  rw [Option.isSome_iff_exists]
  constructor
  · rintro ⟨form, found⟩
    exact ((unsigned_iff writes).mp found).1
  · intro fits
    exact ⟨int.toNat, (unsigned_iff writes).mpr ⟨fits, Int.toNat_of_nonneg (natural fits)⟩⟩

/-- What reading comes to where the text writes the number. -/
structure ReadExactly (text : String) (sign : Sign) (int : Int) : Prop where
  signed : (∃ numeral, Numeral.read text = .ok numeral ∧ numeral.int.isSome) ↔ FitsSigned int
  unsigned :
    (∃ numeral, Numeral.read text = .ok numeral ∧ numeral.uint.isSome) ↔ FitsUnsigned sign int
  /-- A form that is there is the number itself. -/
  exact : ∀ numeral, Numeral.read text = .ok numeral →
    (∀ form, numeral.int = some form → form = int) ∧
      ∀ form, numeral.uint = some form → (form : Int) = int
  kept : ∀ numeral, Numeral.read text = .ok numeral → numeral.text = text ∧ numeral.float.isSome
  succeeds : FitsSigned int ∨ FitsUnsigned sign int → ∃ numeral, Numeral.read text = .ok numeral
  fails : ¬ (FitsSigned int ∨ FitsUnsigned sign int) → ∃ fault, Numeral.read text = .error fault

theorem writes_read (writes : Writes sign text int) : ReadExactly text sign int := by
  have signed := signed_isSome writes
  have unsigned := unsigned_isSome writes
  by_cases range : FitsSigned int ∨ FitsUnsigned sign int
  · obtain ⟨float, read⟩ := read_in_range (by rwa [signed, unsigned])
    have only {numeral : Numeral} (ok : Numeral.read text = .ok numeral) :
        numeral = ⟨text, Numeral.signed? text, Numeral.unsigned? text, some float⟩ :=
      Except.ok.inj (ok.symm.trans read)
    refine ⟨?_, ?_, ?_, ?_, fun _ => ⟨_, read⟩, fun out => absurd range out⟩
    · rw [← signed]
      exact ⟨fun ⟨numeral, ok, held⟩ => by rwa [only ok] at held, fun held => ⟨_, read, held⟩⟩
    · rw [← unsigned]
      exact ⟨fun ⟨numeral, ok, held⟩ => by rwa [only ok] at held, fun held => ⟨_, read, held⟩⟩
    · intro numeral ok
      rw [only ok]
      exact ⟨fun form found => ((signed_iff writes).mp found).2,
        fun form found => ((unsigned_iff writes).mp found).2⟩
    · intro numeral ok
      rw [only ok]
      exact ⟨rfl, rfl⟩
  · have none : Numeral.signed? text = none ∧ Numeral.unsigned? text = none := by
      rw [← signed, ← unsigned, not_or] at range
      simpa using range
    obtain ⟨fault, refused⟩ := readFloat_writes writes
    have read := (read_out_of_range none.1 none.2).trans refused
    have never {numeral : Numeral} (ok : Numeral.read text = .ok numeral) : False := by
      rw [read] at ok
      cases ok
    refine ⟨?_, ?_, fun numeral ok => (never ok).elim, fun numeral ok => (never ok).elim,
      fun fits => absurd fits range, fun _ => ⟨fault, read⟩⟩
    · exact ⟨fun ⟨numeral, ok, _⟩ => (never ok).elim, fun fits => absurd (.inl fits) range⟩
    · exact ⟨fun ⟨numeral, ok, _⟩ => (never ok).elim, fun fits => absurd (.inr fits) range⟩

/-- A text that is no spelling is read as a floating-point number. -/
theorem unwritten_read (unwritten : ∀ sign int, ¬ Writes sign text int) :
    Numeral.read text = Numeral.readFloat text := by
  have unread : integer? text.toList = none := by
    refine Option.eq_none_iff_forall_ne_some.mpr fun int found => ?_
    obtain ⟨sign, writes⟩ := integer_iff.mp found
    exact unwritten sign int writes
  have unsigned : magnitude? text.toList = none := by
    refine Option.eq_none_iff_forall_ne_some.mpr fun magnitude found => ?_
    exact unwritten .none magnitude ⟨_, magnitude, rfl, magnitude_iff.mp found, rfl⟩
  exact read_out_of_range (by simp [Numeral.signed?, unread])
    (by simp [Numeral.unsigned?, Numeral.signed?, unread, unsigned])

/-- So it is read only if it is written as a fraction. -/
theorem unwritten_fractional (unwritten : ∀ sign int, ¬ Writes sign text int) {numeral : Numeral}
    (ok : Numeral.read text = .ok numeral) : Numeral.isFractional text = true := by
  rw [unwritten_read unwritten] at ok
  by_contra whole
  obtain ⟨fault, refused⟩ := readFloat_whole (Bool.eq_false_iff.mpr whole)
  rw [refused] at ok
  cases ok

/-- **Whole numbers are read exactly.** A spelling of a whole number is read exactly if the number
fits into one of the two forms of 64 bits; it then has each form that it fits into, and no form has
another value. A text that is no spelling has neither form, unless it holds a point or the letter of
an exponent. -/
theorem integer_read_exactly (text : String) :
    (∀ sign int, Writes sign text int → ReadExactly text sign int) ∧
    ((∀ sign int, ¬ Writes sign text int) → ∀ numeral, Numeral.read text = .ok numeral →
      numeral.int.isSome ∨ numeral.uint.isSome →
        '.' ∈ text.toList ∨ 'e' ∈ text.toList ∨ 'E' ∈ text.toList) := by
  refine ⟨fun sign int writes => writes_read writes, fun unwritten numeral ok _ => ?_⟩
  exact isFractional_marks.mp (unwritten_fractional unwritten ok)

/-- The least number of 64 bits with a sign, written in base sixteen. -/
theorem integer_read_exactly_least : Writes .minus "-0X8000000000000000" (-2 ^ 63) ∧
    (∃ numeral, Numeral.read "-0X8000000000000000" = .ok numeral ∧
      numeral.text = "-0X8000000000000000" ∧ numeral.int = some (-2 ^ 63)) ∧
    ¬ ∃ numeral, Numeral.read "-0X8000000000000000" = .ok numeral ∧ numeral.uint.isSome := by
  have writes : Writes .minus "-0X8000000000000000" (-2 ^ 63) := by
    refine ⟨"0X8000000000000000".toList, 2 ^ 63, rfl, magnitude_iff.mp ?_, rfl⟩
    decide +kernel
  have exactly := (integer_read_exactly "-0X8000000000000000").1 .minus _ writes
  obtain ⟨numeral, ok, held⟩ := exactly.signed.mpr ⟨by decide, by decide⟩
  obtain ⟨form, found⟩ := Option.isSome_iff_exists.mp held
  refine ⟨writes, ⟨numeral, ok, (exactly.kept numeral ok).1, ?_⟩, fun unsigned => ?_⟩
  · rw [found, (exactly.exact numeral ok).1 form found]
  · rcases exactly.unsigned.mp unsigned with zero | ⟨none, -⟩
    · exact absurd zero (by decide)
    · cases none

end ResourceQuery.IntegerSpellings
