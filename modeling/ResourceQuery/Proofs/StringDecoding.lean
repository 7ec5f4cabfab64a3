import ResourceQuery.Proofs.IntegerSpellings
import ResourceQuery.StringLiteral

/-! What string literals stand for. A literal is read if and only if it is a row of items between
two quotes and the bytes of all its items together are a text; these bytes are then the text that is
read (`decoding_exact`). A single item need not be a text: escapes may number bytes one by one. -/

namespace ResourceQuery.StringDecoding
open Number StringLiteral IntegerSpellings

/-- The escapes that are a backslash and one character, and their bytes. -/
def shortEscapes : List (Char × UInt8) :=
  [('a', 0x07), ('b', 0x08), ('f', 0x0C), ('n', 0x0A), ('r', 0x0D), ('t', 0x09), ('v', 0x0B),
    ('\\', 0x5C), ('"', 0x22)]

/-- An escape by number: what stands between the backslash and the digits, the base of the digits,
and how many they are. -/
structure Numbered where
  mark : List Char
  base : Nat
  count : Nat

/-- Two digits of base sixteen behind an x, or three digits of base eight, number a byte. -/
def byteEscapes : List Numbered := [⟨['x'], 16, 2⟩, ⟨[], 8, 3⟩]

/-- Four digits of base sixteen behind a small u, or eight behind a capital one, number a character.
-/
def charEscapes : List Numbered := [⟨['u'], 16, 4⟩, ⟨['U'], 16, 8⟩]

/-- As many digits as the escape has spell the number. -/
structure Numbers (escape : Numbered) (digits : List Char) (value : Nat) : Prop where
  length : digits.length = escape.count
  spells : Spells escape.base digits value

/-- What stands behind a backslash, and the bytes of that escape. -/
inductive Escaped : List Char → List UInt8 → Prop where
  | short (entry : (c, byte) ∈ shortEscapes) : Escaped [c] [byte]
  | byte (known : escape ∈ byteEscapes) (numbers : Numbers escape digits (byte : UInt8).toNat) :
      Escaped (escape.mark ++ digits) [byte]
  | char (known : escape ∈ charEscapes) (numbers : Numbers escape digits (char : Char).toNat) :
      Escaped (escape.mark ++ digits) (String.utf8EncodeChar char)

/-- An item of a string, and its bytes. -/
inductive Item : List Char → List UInt8 → Prop where
  | plain (quote : c ≠ '"') (backslash : c ≠ '\\') (newline : c ≠ '\n') :
      Item [c] (String.utf8EncodeChar c)
  | escape (escaped : Escaped cs bytes) : Item ('\\' :: cs) bytes

/-- A row of items, and the bytes of all of them. -/
inductive Row : List Char → List UInt8 → Prop where
  | nil : Row [] []
  | cons (item : Item cs bytes) (others : Row rest more) : Row (cs ++ rest) (bytes ++ more)

/-- The spelling is a row of items between two quotes. -/
def Quoted (quoted : String) (bytes : List UInt8) : Prop :=
  ∃ run, quoted.toList = '"' :: (run ++ ['"']) ∧ Row run bytes

variable {base count value : Nat} {cs rest digits run : List Char} {bytes : List UInt8}

/-! ## Numbers of escapes -/

/-- As many digits as were asked for stand in front of the rest. -/
theorem fixedDigits_split (found : fixedDigits? base count cs = some (value, rest)) :
    ∃ digits, cs = digits ++ rest ∧ digits.length = count ∧ Spells base digits value := by
  unfold fixedDigits? at found
  split at found
  · cases found
  · rename_i enough
    obtain ⟨value, read, same⟩ := Option.map_eq_some_iff.mp found
    cases same
    refine ⟨cs.take count, (List.take_append_drop count cs).symm, ?_, digits_iff.mp read⟩
    rw [List.length_take]
    omega

theorem numbers_read {escape : Numbered} (numbers : Numbers escape digits value)
    (rest : List Char) :
    fixedDigits? escape.base escape.count (digits ++ rest) = some (value, rest) := by
  obtain ⟨length, spells⟩ := numbers
  have enough : ¬ (digits ++ rest).length < digits.length := by
    rw [List.length_append]
    omega
  rw [← length, fixedDigits?, if_neg enough, List.take_left, List.drop_left, digits_iff.mpr spells]
  rfl

theorem scalar_iff {char : Char} : scalar? value = some char ↔ char.toNat = value := by
  unfold scalar?
  constructor
  · intro found
    split at found
    · rename_i valid
      cases found
      rw [Char.ofNat, dif_pos valid]
      rfl
    · cases found
  · rintro rfl
    have valid : char.toNat.isValidChar := char.valid
    rw [if_pos valid, Char.ofNat_toNat]

theorem toUInt8_toNat (small : value < 256) : value.toUInt8.toNat = value :=
  UInt8.toNat_ofNat_of_lt' small

/-! ## Escapes -/

theorem short_iff {c : Char} {byte : UInt8} :
    shortEscape? c = some byte ↔ (c, byte) ∈ shortEscapes := by
  constructor
  · intro found
    unfold shortEscape? at found
    split at found <;> cases found <;> decide
  · intro entry
    have all : ∀ entry ∈ shortEscapes, shortEscape? entry.1 = some entry.2 := by decide
    exact all _ entry

theorem escape_hex (cs : List Char) : escape? ('x' :: cs) =
    (fixedDigits? 16 2 cs).map fun found => ([found.1.toUInt8], found.2) :=
  rfl

theorem escape_char {escape : Numbered} (known : escape ∈ charEscapes) (cs : List Char) :
    escape? (escape.mark ++ cs) = (fixedDigits? escape.base escape.count cs).bind fun found =>
      (scalar? found.1).bind fun char => some (String.utf8EncodeChar char, found.2) := by
  rcases List.mem_pair.mp known with rfl | rfl <;> rfl

/-- What has no other meaning behind a backslash can only be a digit of base eight. -/
theorem escape_octal {c : Char} (short : shortEscape? c = none) (hex : c ≠ 'x')
    (char : ¬ (c = 'u' ∨ c = 'U')) (cs : List Char) : escape? (c :: cs) =
      (fixedDigits? 8 3 (c :: cs)).bind fun found =>
        if found.1 ≤ 255 then some ([found.1.toUInt8], found.2) else none := by
  simp only [escape?, short, if_neg hex, if_neg char]
  rfl

/-- A digit of base eight has no other meaning behind a backslash. -/
theorem octal_digit {c : Char} {worth : Nat} (digit : (c, worth) ∈ digitTable)
    (small : worth < 8) : shortEscape? c = none ∧ c ≠ 'x' ∧ ¬ (c = 'u' ∨ c = 'U') := by
  have all : ∀ entry ∈ digitTable, entry.2 < 8 → shortEscape? entry.1 = none ∧
      entry.1 ≠ 'x' ∧ ¬ (entry.1 = 'u' ∨ entry.1 = 'U') := by decide
  exact all _ digit small

theorem octal_read (numbers : Numbers ⟨[], 8, 3⟩ digits value) (rest : List Char) :
    escape? (digits ++ rest) = if value ≤ 255 then some ([value.toUInt8], rest) else none := by
  have fixed : fixedDigits? 8 3 (digits ++ rest) = some (value, rest) := numbers_read numbers rest
  obtain ⟨length, spells⟩ := numbers
  cases spells with
  | nil => cases length
  | cons digit bounded others =>
    obtain ⟨short, hex, char⟩ := octal_digit digit bounded
    rw [List.cons_append] at fixed ⊢
    rw [escape_octal short hex char, fixed, Option.bind_some]

/-- The escape is read off as a whole, and nothing behind it. -/
theorem escaped_read (escaped : Escaped cs bytes) (rest : List Char) :
    escape? (cs ++ rest) = some (bytes, rest) := by
  cases escaped with
  | @short c byte entry => simp only [List.singleton_append, escape?, short_iff.mpr entry]
  | @byte escape digits byte known numbers =>
    have value : byte.toNat.toUInt8 = byte := UInt8.ofNat_toNat
    rw [← value]
    rcases List.mem_pair.mp known with rfl | rfl
    · rw [List.append_assoc, List.singleton_append, escape_hex]
      exact congrArg _ (numbers_read numbers rest)
    · exact (octal_read numbers rest).trans (if_pos (Nat.le_of_lt_succ byte.toNat_lt))
  | @char escape digits char known numbers =>
    have scalar := scalar_iff.mpr (Eq.refl char.toNat)
    rw [List.append_assoc, escape_char known, numbers_read numbers rest, Option.bind_some, scalar,
      Option.bind_some]

theorem byte_escaped {escape : Numbered} (known : escape ∈ byteEscapes)
    (numbers : Numbers escape digits value) (small : value < 256) :
    Escaped (escape.mark ++ digits) [value.toUInt8] := by
  apply Escaped.byte known
  rwa [toUInt8_toNat small]

theorem hex_split (found : escape? ('x' :: cs) = some (bytes, rest)) :
    ∃ front, 'x' :: cs = front ++ rest ∧ Escaped front bytes := by
  rw [escape_hex] at found
  obtain ⟨⟨value, behind⟩, read, same⟩ := Option.map_eq_some_iff.mp found
  cases same
  obtain ⟨digits, rfl, length, spells⟩ := fixedDigits_split read
  have small := spells_lt spells
  rw [length] at small
  exact ⟨_, rfl, byte_escaped (.head _) ⟨length, spells⟩ small⟩

theorem char_split {escape : Numbered} (known : escape ∈ charEscapes)
    (found : escape? (escape.mark ++ cs) = some (bytes, rest)) :
    ∃ front, escape.mark ++ cs = front ++ rest ∧ Escaped front bytes := by
  rw [escape_char known] at found
  obtain ⟨⟨value, behind⟩, read, named⟩ := Option.bind_eq_some_iff.mp found
  obtain ⟨char, scalar, same⟩ := Option.bind_eq_some_iff.mp named
  cases same
  obtain rfl := scalar_iff.mp scalar
  obtain ⟨digits, rfl, length, spells⟩ := fixedDigits_split read
  exact ⟨_, (List.append_assoc ..).symm, .char known ⟨length, spells⟩⟩

theorem octal_split (found : ((fixedDigits? 8 3 cs).bind fun found =>
      if found.1 ≤ 255 then some ([found.1.toUInt8], found.2) else none) = some (bytes, rest)) :
    ∃ front, cs = front ++ rest ∧ Escaped front bytes := by
  obtain ⟨⟨value, behind⟩, read, same⟩ := Option.bind_eq_some_iff.mp found
  split at same
  · rename_i small
    cases same
    obtain ⟨digits, whole, length, spells⟩ := fixedDigits_split read
    exact ⟨digits, whole, byte_escaped (.tail _ (.head _)) ⟨length, spells⟩
      (Nat.lt_succ_of_le small)⟩
  · cases same

/-- Whatever is read behind a backslash is an escape. -/
theorem escape_split (found : escape? cs = some (bytes, rest)) :
    ∃ front, cs = front ++ rest ∧ Escaped front bytes := by
  cases cs with
  | nil => cases found
  | cons c cs =>
    cases short : shortEscape? c with
    | some byte =>
      simp only [escape?, short] at found
      cases found
      exact ⟨[c], rfl, .short (short_iff.mp short)⟩
    | none =>
      by_cases hex : c = 'x'
      · subst hex
        exact hex_split found
      by_cases char : c = 'u' ∨ c = 'U'
      · rcases char with rfl | rfl
        · exact char_split (.head _) found
        · exact char_split (.tail _ (.head _)) found
      · rw [escape_octal short hex char] at found
        exact octal_split found

theorem escape_iff :
    escape? cs = some (bytes, rest) ↔ ∃ front, cs = front ++ rest ∧ Escaped front bytes := by
  constructor
  · exact escape_split
  · rintro ⟨front, rfl, escaped⟩
    exact escaped_read escaped rest

/-! ## Items -/

theorem item_iff :
    item? cs = some (bytes, rest) ↔ ∃ front, cs = front ++ rest ∧ Item front bytes := by
  constructor
  · intro found
    cases cs with
    | nil => cases found
    | cons c cs =>
      rw [item?] at found
      split at found
      · cases found
      · rename_i plain
        obtain ⟨quote, newline⟩ := not_or.mp plain
        split at found
        · subst c
          obtain ⟨front, rfl, escaped⟩ := escape_iff.mp found
          exact ⟨'\\' :: front, rfl, .escape escaped⟩
        · rename_i backslash
          cases found
          exact ⟨[c], rfl, .plain quote backslash newline⟩
  · rintro ⟨front, rfl, item⟩
    cases item with
    | @plain c quote backslash newline =>
      rw [List.singleton_append, item?, if_neg (not_or.mpr ⟨quote, newline⟩), if_neg backslash]
    | @escape cs bytes escaped =>
      rw [List.cons_append, item?, if_neg (by decide), if_pos rfl, escaped_read escaped]

/-- The characters have just the bytes of the row of items that they are. -/
theorem bytes_iff : bytes? cs = some bytes ↔ Row cs bytes := by
  constructor
  · intro found
    fun_induction bytes? cs generalizing bytes with
    | case1 cs empty =>
      cases found
      rw [List.isEmpty_iff.mp empty]
      exact .nil
    | case2 cs nonempty none => cases found
    | case3 cs nonempty bytes rest first ih =>
      obtain ⟨more, behind, rfl⟩ := Option.map_eq_some_iff.mp found
      obtain ⟨front, rfl, item⟩ := item_iff.mp first
      exact .cons item (ih behind)
  · intro row
    induction row with
    | nil => exact bytes?_nil
    | @cons front bytes rest more item others ih =>
      rw [bytes?_of_item (item_iff.mpr ⟨front, rfl, item⟩), ih]
      rfl

/-! ## Literals -/

theorem inner_iff : inner? cs = some run ↔ cs = '"' :: (run ++ ['"']) := by
  constructor
  · intro enclosed
    unfold inner? at enclosed
    split at enclosed
    · split at enclosed
      · rename_i cs quote
        cases enclosed
        rw [List.dropLast_append_getLast? '"' quote]
      · cases enclosed
    · cases enclosed
  · rintro rfl
    simp only [inner?, List.getLast?_concat, List.dropLast_concat]
    rfl

/-- The bytes of a text in UTF-8. -/
def utf8 (text : String) : List UInt8 := text.toList.flatMap String.utf8EncodeChar

theorem toByteArray_iff {text : String} :
    text.toByteArray = bytes.toByteArray ↔ utf8 text = bytes := by
  rw [← String.utf8Encode_toList]
  exact List.toByteArray_inj

theorem fromUTF8_iff {text : String} :
    String.fromUTF8? bytes.toByteArray = some text ↔ utf8 text = bytes := by
  rw [← toByteArray_iff, String.fromUTF8?]
  constructor
  · intro found
    split at found
    · cases found
      rfl
    · cases found
  · intro same
    have valid : bytes.toByteArray.IsValidUTF8 := same ▸ text.isValidUTF8
    rw [dif_pos valid]
    exact congrArg some (String.toByteArray_inj.mp same.symm)

theorem utf8_valid (text : String) : (utf8 text).toByteArray.IsValidUTF8 := by
  rw [← toByteArray_iff.mpr rfl]
  exact text.isValidUTF8

/-- Valid bytes are those of a text. -/
theorem valid_utf8 (valid : bytes.toByteArray.IsValidUTF8) : ∃ text, utf8 text = bytes :=
  ⟨String.fromUTF8 _ valid, toByteArray_iff.mp rfl⟩

variable {quoted text : String} {literal : StringLiteral}

theorem quoted_iff : Quoted quoted bytes ↔
    ∃ run, inner? quoted.toList = some run ∧ bytes? run = some bytes := by
  simp only [Quoted, inner_iff, bytes_iff]

/-- The items of a spelling have only these bytes. -/
theorem quoted_unique {bytes' : List UInt8} (stands : Quoted quoted bytes)
    (stands' : Quoted quoted bytes') : bytes = bytes' := by
  obtain ⟨run, inner, items⟩ := quoted_iff.mp stands
  obtain ⟨run', inner', items'⟩ := quoted_iff.mp stands'
  obtain rfl := Option.some.inj (inner.symm.trans inner')
  exact Option.some.inj (items.symm.trans items')

theorem text_iff : text? quoted = some text ↔ Quoted quoted (utf8 text) := by
  rw [quoted_iff]
  simp only [text?, Option.bind_eq_bind, Option.bind_eq_some_iff, fromUTF8_iff]
  constructor
  · rintro ⟨run, inner, bytes, items, rfl⟩
    exact ⟨run, inner, items⟩
  · rintro ⟨run, inner, items⟩
    exact ⟨run, inner, _, items, rfl⟩

/-- The text that is read has the bytes of the items. -/
theorem literal_iff : StringLiteral.read quoted = .ok literal ↔
    literal.quoted = quoted ∧ Quoted quoted (utf8 literal.text) := by
  rw [← text_iff]
  unfold StringLiteral.read
  constructor
  · intro read
    split at read
    · rename_i text found
      cases read
      exact ⟨rfl, found⟩
    · cases read
  · rintro ⟨rfl, found⟩
    rw [found]

/-- Only the bytes of all items together have to be valid. -/
theorem accepted_iff : (∃ literal, StringLiteral.read quoted = .ok literal) ↔
    ∃ bytes, Quoted quoted bytes ∧ bytes.toByteArray.IsValidUTF8 := by
  constructor
  · rintro ⟨literal, read⟩
    exact ⟨_, (literal_iff.mp read).2, utf8_valid _⟩
  · rintro ⟨bytes, stands, valid⟩
    obtain ⟨text, rfl⟩ := valid_utf8 valid
    exact ⟨⟨quoted, text⟩, literal_iff.mpr ⟨rfl, stands⟩⟩

theorem refused_whole (refused : ¬ ∃ literal, StringLiteral.read quoted = .ok literal) :
    StringLiteral.read quoted = .error (.invalidString quoted) := by
  unfold StringLiteral.read at refused ⊢
  split
  · rename_i text found
    rw [found] at refused
    exact absurd ⟨_, rfl⟩ refused
  · rfl

/-- What reading comes to. -/
structure Decoded (quoted : String) : Prop where
  unique : ∀ bytes bytes', Quoted quoted bytes → Quoted quoted bytes' → bytes = bytes'
  accepted : (∃ literal, StringLiteral.read quoted = .ok literal) ↔
    ∃ bytes, Quoted quoted bytes ∧ bytes.toByteArray.IsValidUTF8
  decoded : ∀ literal, StringLiteral.read quoted = .ok literal ↔
    literal.quoted = quoted ∧ Quoted quoted (utf8 literal.text)
  refused : (¬ ∃ literal, StringLiteral.read quoted = .ok literal) →
    StringLiteral.read quoted = .error (.invalidString quoted)

/-- As long as a digit of the escape is missing, there is room in 32 bits for one more digit behind
those that were read. -/
def FitsWord (escape : Numbered) : Prop :=
  ∀ digits value, digits.length < escape.count → digits? escape.base digits = some value →
    value * escape.base + (escape.base - 1) < 2 ^ 32

theorem escape_fits {escape : Numbered} (known : escape ∈ byteEscapes ++ charEscapes) :
    FitsWord escape := by
  intro digits value unfinished read
  have all : ∀ escape ∈ byteEscapes ++ charEscapes,
      0 < escape.base ∧ escape.base ^ escape.count ≤ 2 ^ 32 := by decide
  obtain ⟨positive, word⟩ := all escape known
  have next : (value + 1) * escape.base ≤ 2 ^ 32 :=
    calc (value + 1) * escape.base ≤ escape.base ^ digits.length * escape.base :=
          Nat.mul_le_mul_right _ (spells_lt (digits_iff.mp read))
      _ = escape.base ^ (digits.length + 1) := (Nat.pow_succ ..).symm
      _ ≤ escape.base ^ escape.count := Nat.pow_le_pow_right positive unfinished
      _ ≤ 2 ^ 32 := word
  rw [Nat.succ_mul] at next
  omega

/-- **String literals are decoded exactly.** A spelling is read just where it is a row of items
between quotes that stand for a text, and this text is read. Otherwise the whole spelling is
refused. No number in an escape ever leaves 32 bits while its digits are read. -/
theorem decoding_exact : (∀ quoted, Decoded quoted) ∧
    ∀ escape ∈ byteEscapes ++ charEscapes, FitsWord escape :=
  ⟨fun _ => ⟨fun _ _ => quoted_unique, accepted_iff, fun _ => literal_iff, refused_whole⟩,
    fun _ => escape_fits⟩

end ResourceQuery.StringDecoding
