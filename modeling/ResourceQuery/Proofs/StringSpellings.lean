import ResourceQuery.Proofs.StringDecoding
import ResourceQuery.Proofs.TokenForms

/-! Spellings of strings. Whatever is read as a string literal is a quote, some items and a quote,
in the sense in which a token is (`read_items`): the digits of its escapes are plain characters, so
they end no string. It therefore is one token wherever it is delimited (`read_standalone`). -/

namespace ResourceQuery.StringSpellings
open StringLiteral
open IntegerSpellings StringDecoding TokenForms LexemeSpelling

variable {base value : Nat} {cs rest digits : List Char} {bytes : List UInt8}

/-! ## Items -/

/-- No digit is a character that means something in a string. -/
theorem digit_plain {c : Char} {worth : Nat} (digit : (c, worth) ∈ digitTable) :
    c ≠ '"' ∧ c ≠ '\\' ∧ c ≠ '\n' := by
  have all : ∀ entry ∈ digitTable, entry.1 ≠ '"' ∧ entry.1 ≠ '\\' ∧ entry.1 ≠ '\n' := by decide
  exact all _ digit

theorem items_digits (spells : Spells base digits value) (others : Items rest) :
    Items (digits ++ rest) := by
  induction spells with
  | nil => exact others
  | cons digit small more ih =>
    obtain ⟨quote, backslash, newline⟩ := digit_plain digit
    exact .plain quote backslash newline ih

/-- An escape is a backslash, a character that is no newline, and maybe digits. -/
theorem items_escape (escaped : Escaped cs bytes) (others : Items rest) :
    Items ('\\' :: (cs ++ rest)) := by
  cases escaped with
  | @short c byte entry =>
    have all : ∀ entry ∈ shortEscapes, entry.1 ≠ '\n' := by decide
    exact .escape (all _ entry) others
  | @byte escape digits byte known numbers =>
    obtain ⟨length, spells⟩ := numbers
    rcases List.mem_pair.mp known with rfl | rfl
    · exact .escape (by decide) (items_digits spells others)
    · generalize byte.toNat = value at spells
      cases spells with
      | nil => cases length
      | cons digit small more => exact .escape (digit_plain digit).2.2 (items_digits more others)
  | @char escape digits char known numbers =>
    have more := items_digits numbers.spells others
    rcases List.mem_pair.mp known with rfl | rfl
    · exact .escape (by decide) more
    · exact .escape (by decide) more

/-- What has bytes is a sequence of items. -/
theorem items_row (row : Row cs bytes) : Items cs := by
  induction row with
  | nil => exact .nil
  | @cons front bytes rest more item others ih =>
    cases item with
    | plain quote backslash newline => exact .plain quote backslash newline ih
    | escape escaped => exact items_escape escaped ih

/-! ## Literals -/

/-- Whatever is read as a string literal is a row of items between two quotes. -/
theorem read_items {quoted : String} {literal : StringLiteral}
    (read : StringLiteral.read quoted = .ok literal) :
    ∃ run, Items run ∧ quoted.toList = '"' :: (run ++ ['"']) := by
  obtain ⟨-, run, enclosed, row⟩ := literal_iff.mp read
  exact ⟨run, items_row row, enclosed⟩

/-- So it is one string token wherever it stands. -/
theorem read_standalone {quoted : String} {literal : StringLiteral}
    (read : StringLiteral.read quoted = .ok literal) : Standalone .string quoted.toList := by
  obtain ⟨run, items, whole⟩ := read_items read
  rw [whole]
  intro depth rest _
  have lexes : Lexes depth [] .string ('"' :: (run ++ ['"'])) rest :=
    .token (.string items) trivial (by simp)
  exact lexes_read lexes

end ResourceQuery.StringSpellings
