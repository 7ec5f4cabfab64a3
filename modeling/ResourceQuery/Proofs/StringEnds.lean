import ResourceQuery.Proofs.StringSpellings

/-! Where a string ends. The lexer skips one character behind each backslash, while decoding takes a
whole escape, and yet the two never disagree on the quote that closes a string. Decoding stops at
the first flaw of a spelling, and what is left in front of it is still a row of items in the lexer's
sense. So the spelling of a token has no flaw but a bad escape, or bytes that are no text
(`string_ends_agree`). -/

namespace ResourceQuery.StringEnds
open Number StringLiteral
open IntegerSpellings StringDecoding StringSpellings TokenForms LexemeSpelling

/-! ## Flaws -/

/-- The characters behind a backslash announce the escape by its mark, or, if it has none, by its
first digit. -/
def Announces (escape : Numbered) (cs : List Char) : Prop :=
  ∃ ahead, cs = escape.mark ++ ahead ∧ (escape.mark = [] → ∃ c rest worth, ahead = c :: rest ∧
    (c, worth) ∈ digitTable ∧ worth < escape.base)

/-- What may stand behind a backslash without being an escape. -/
inductive BadEscape : List Char → Prop where
  /-- The first character is no short escape and announces no number. -/
  | unknown (short : ∀ byte, (c, byte) ∉ shortEscapes)
      (numbered : ∀ escape ∈ byteEscapes ++ charEscapes, ¬ Announces escape (c :: cs)) :
      BadEscape (c :: cs)
  /-- There are too few digits of the base. -/
  | digits (known : escape ∈ byteEscapes ++ charEscapes)
      (announced : Announces escape (escape.mark ++ ahead))
      (few : ∀ digits value rest, Numbers escape digits value → ahead ≠ digits ++ rest) :
      BadEscape (escape.mark ++ ahead)
  /-- The number is no byte. -/
  | byte (known : escape ∈ byteEscapes) (numbers : Numbers escape digits value)
      (large : 255 < value) : BadEscape (escape.mark ++ (digits ++ rest))
  /-- The number is a surrogate or lies beyond the last character. -/
  | char (known : escape ∈ charEscapes) (numbers : Numbers escape digits value)
      (none : ¬ value.isValidChar) : BadEscape (escape.mark ++ (digits ++ rest))

/-- What can be wrong with the spelling of a string. -/
inductive Flaw where
  | missingQuote
  | bareQuote
  | newline
  | lastBackslash
  | escape
  | encoding
  deriving DecidableEq

/-- Why no item stands at the beginning of the characters. -/
inductive NoItem : Flaw → List Char → Prop where
  | bareQuote : NoItem .bareQuote ('"' :: cs)
  | newline : NoItem .newline ('\n' :: cs)
  | lastBackslash : NoItem .lastBackslash ['\\']
  | escape (bad : BadEscape cs) : NoItem .escape ('\\' :: cs)

/-- The first flaw of a spelling. In front of what is no item there are items only, and the bytes of
the items do not matter before the last of them. -/
inductive FirstFlaw (quoted : String) : Flaw → Prop where
  | missingQuote (bare : ∀ run, quoted.toList ≠ '"' :: (run ++ ['"'])) :
      FirstFlaw quoted .missingQuote
  | item (enclosed : quoted.toList = '"' :: (front ++ rest ++ ['"'])) (items : Row front bytes)
      (stuck : NoItem flaw rest) : FirstFlaw quoted flaw
  | encoding (stands : Quoted quoted bytes) (invalid : ¬ bytes.toByteArray.IsValidUTF8) :
      FirstFlaw quoted .encoding

variable {c : Char} {cs front rest run : List Char} {bytes : List UInt8} {escape : Numbered}
  {flaw flaw' : Flaw} {quoted : String} {value : Nat}

/-! ## Escapes -/

theorem fixedDigits_none (escape : Numbered) : fixedDigits? escape.base escape.count cs = none ↔
    ∀ digits value rest, Numbers escape digits value → cs ≠ digits ++ rest := by
  constructor
  · rintro none digits value rest numbers rfl
    rw [numbers_read numbers rest] at none
    cases none
  · intro few
    cases found : fixedDigits? escape.base escape.count cs with
    | none => rfl
    | some read =>
      obtain ⟨digits, whole, length, spells⟩ := fixedDigits_split found
      exact absurd whole (few digits read.1 read.2 ⟨length, spells⟩)

theorem scalar_none : scalar? value = none ↔ ¬ value.isValidChar := by
  simp [scalar?]

/-- A mark announces its escape, whatever is behind it. -/
theorem announces_mark (marked : escape.mark ≠ []) (ahead : List Char) :
    Announces escape (escape.mark ++ ahead) :=
  ⟨ahead, rfl, fun none => absurd none marked⟩

theorem char_marked (known : escape ∈ charEscapes) : escape.mark ≠ [] := by
  rcases List.mem_pair.mp known with rfl | rfl <;> decide

theorem announces_octal : Announces ⟨[], 8, 3⟩ (c :: cs) ↔
    ∃ worth, (c, worth) ∈ digitTable ∧ worth < 8 := by
  constructor
  · rintro ⟨ahead, rfl, first⟩
    obtain ⟨d, rest, worth, same, digit, small⟩ := first rfl
    cases same
    exact ⟨worth, digit, small⟩
  · rintro ⟨worth, digit, small⟩
    exact ⟨c :: cs, rfl, fun _ => ⟨c, cs, worth, rfl, digit, small⟩⟩

theorem announces_letter {mark : Char} {base count : Nat} :
    Announces ⟨[mark], base, count⟩ (c :: cs) ↔ c = mark := by
  constructor
  · rintro ⟨ahead, same, -⟩
    exact (List.cons.inj same).1
  · rintro rfl
    exact announces_mark (List.cons_ne_nil c []) cs

/-- A character that announces nothing is none of the three marks and no digit of base eight. -/
theorem announces_none : (∀ escape ∈ byteEscapes ++ charEscapes, ¬ Announces escape (c :: cs)) ↔
    c ≠ 'x' ∧ ¬ (c = 'u' ∨ c = 'U') ∧ ¬ Announces ⟨[], 8, 3⟩ (c :: cs) := by
  simp only [byteEscapes, charEscapes, List.cons_append, List.nil_append, List.forall_mem_cons,
    announces_letter, List.not_mem_nil, IsEmpty.forall_iff, implies_true, and_true, not_or]
  tauto

/-- Where the first character is no digit of base eight, no three digits of that base stand. -/
theorem octal_none (other : ¬ Announces ⟨[], 8, 3⟩ (c :: cs)) :
    fixedDigits? 8 3 (c :: cs) = none := by
  refine (fixedDigits_none ⟨[], 8, 3⟩).mpr ?_
  rintro digits value rest ⟨length, spells⟩ whole
  cases spells with
  | nil => cases length
  | cons digit small others =>
    obtain ⟨rfl, -⟩ := List.cons.inj whole
    exact other (announces_octal.mpr ⟨_, digit, small⟩)

theorem hex_bad (none : escape? ('x' :: cs) = none) : BadEscape ('x' :: cs) := by
  rw [escape_hex, Option.map_eq_none_iff] at none
  have known : ⟨['x'], 16, 2⟩ ∈ byteEscapes ++ charEscapes := .head _
  exact .digits known (announces_mark (by decide) cs) ((fixedDigits_none _).mp none)

theorem char_bad (known : escape ∈ charEscapes) (none : escape? (escape.mark ++ cs) = none) :
    BadEscape (escape.mark ++ cs) := by
  rw [escape_char known] at none
  cases found : fixedDigits? escape.base escape.count cs with
  | none =>
    exact .digits (List.mem_append_right _ known) (announces_mark (char_marked known) cs)
      ((fixedDigits_none _).mp found)
  | some read =>
    obtain ⟨digits, rfl, length, spells⟩ := fixedDigits_split found
    rw [found, Option.bind_some] at none
    refine .char known ⟨length, spells⟩ (scalar_none.mp ?_)
    cases scalar : scalar? read.1 with
    | none => rfl
    | some char => simp [scalar] at none

theorem octal_bad (short : shortEscape? c = none) (hex : c ≠ 'x') (char : ¬ (c = 'u' ∨ c = 'U'))
    (none : escape? (c :: cs) = none) : BadEscape (c :: cs) := by
  have octal : ⟨[], 8, 3⟩ ∈ byteEscapes := .tail _ (.head _)
  rw [escape_octal short hex char] at none
  by_cases digit : Announces ⟨[], 8, 3⟩ (c :: cs)
  · cases found : fixedDigits? 8 3 (c :: cs) with
    | none =>
      exact .digits (List.mem_append_left _ octal) digit ((fixedDigits_none _).mp found)
    | some read =>
      obtain ⟨digits, whole, length, spells⟩ := fixedDigits_split found
      rw [found, Option.bind_some] at none
      have large : 255 < read.1 := by
        by_contra small
        rw [if_pos (by omega)] at none
        cases none
      rw [whole]
      exact .byte octal ⟨length, spells⟩ large
  · refine .unknown (fun byte entry => ?_) ?_
    · rw [short_iff.mpr entry] at short
      cases short
    · exact announces_none.mpr ⟨hex, char, digit⟩

/-- Only what is bad keeps an escape from being read. -/
theorem badEscape_of_none (nonempty : cs ≠ []) (none : escape? cs = none) : BadEscape cs := by
  obtain ⟨c, cs, rfl⟩ := List.exists_cons_of_ne_nil nonempty
  cases short : shortEscape? c with
  | some byte => simp [escape?, short] at none
  | none =>
    by_cases hex : c = 'x'
    · subst hex
      exact hex_bad none
    by_cases char : c = 'u' ∨ c = 'U'
    · rcases char with rfl | rfl
      · exact char_bad (.head _) none
      · exact char_bad (.tail _ (.head _)) none
    · exact octal_bad short hex char none

/-- What is bad is not read as an escape. -/
theorem badEscape_unread (bad : BadEscape cs) : cs ≠ [] ∧ escape? cs = none := by
  cases bad with
  | @unknown c cs short numbered =>
    obtain ⟨hex, char, octal⟩ := announces_none.mp numbered
    have unlisted : shortEscape? c = none :=
      Option.eq_none_iff_forall_ne_some.mpr fun byte entry => short byte (short_iff.mp entry)
    refine ⟨List.cons_ne_nil c cs, ?_⟩
    rw [escape_octal unlisted hex char, octal_none octal]
    rfl
  | @digits escape ahead known announced few =>
    have missing := (fixedDigits_none escape).mpr few
    rcases List.mem_append.mp known with byte | char
    · rcases List.mem_pair.mp byte with rfl | rfl
      · exact ⟨List.cons_ne_nil _ _, (escape_hex ahead).trans (by rw [missing]; rfl)⟩
      · obtain ⟨_, rfl, first⟩ := announced
        obtain ⟨c, rest, worth, rfl, digit, small⟩ := first rfl
        obtain ⟨short, hex, char⟩ := octal_digit digit small
        exact ⟨List.cons_ne_nil _ _, (escape_octal short hex char rest).trans (by rw [missing]; rfl)⟩
    · refine ⟨by simp [char_marked char], ?_⟩
      rw [escape_char char, missing]
      rfl
  | @byte escape digits value rest known numbers large =>
    have bound := spells_lt numbers.spells
    rw [numbers.length] at bound
    rcases List.mem_pair.mp known with rfl | rfl
    · exact absurd bound (by simp only; omega)
    · refine ⟨?_, (octal_read numbers rest).trans (if_neg (by omega))⟩
      have some := numbers.length
      cases digits with
      | nil => cases some
      | cons c digits => exact List.cons_ne_nil _ _
  | @char escape digits value rest known numbers none =>
    refine ⟨by simp [char_marked known], ?_⟩
    rw [escape_char known, numbers_read numbers, Option.bind_some, scalar_none.mpr none]
    rfl

/-! ## Items -/

theorem noItem_iff : (∃ flaw, NoItem flaw cs) ↔ cs ≠ [] ∧ item? cs = none := by
  constructor
  · rintro ⟨flaw, stuck⟩
    cases stuck with
    | bareQuote | newline | lastBackslash => exact ⟨List.cons_ne_nil _ _, rfl⟩
    | escape bad => exact ⟨List.cons_ne_nil _ _, (badEscape_unread bad).2⟩
  · rintro ⟨nonempty, none⟩
    obtain ⟨c, cs, rfl⟩ := List.exists_cons_of_ne_nil nonempty
    rw [item?] at none
    split at none
    · rename_i special
      rcases special with rfl | rfl
      · exact ⟨_, .bareQuote⟩
      · exact ⟨_, .newline⟩
    split at none
    · subst c
      cases cs with
      | nil => exact ⟨_, .lastBackslash⟩
      | cons c cs => exact ⟨_, .escape (badEscape_of_none (List.cons_ne_nil c cs) none)⟩
    · cases none

theorem noItem_unique (one : NoItem flaw cs) (other : NoItem flaw' cs) : flaw = flaw' := by
  cases one with
  | bareQuote | newline =>
    cases other
    rfl
  | lastBackslash =>
    cases other with
    | lastBackslash => rfl
    | escape bad => exact absurd rfl (badEscape_unread bad).1
  | escape bad =>
    cases other with
    | lastBackslash => exact absurd rfl (badEscape_unread bad).1
    | escape => rfl

/-- Decoding goes on behind a row of items. -/
theorem bytes_behind (items : Row front bytes) (rest : List Char) :
    bytes? (front ++ rest) = (bytes? rest).map (bytes ++ ·) := by
  induction items with
  | nil => simp
  | @cons cs bytes others more item items ih =>
    have first : item? (cs ++ (others ++ rest)) = some (bytes, others ++ rest) :=
      item_iff.mpr ⟨cs, rfl, item⟩
    rw [List.append_assoc, bytes?_of_item first, ih, Option.map_map]
    exact congrArg (Option.map · (bytes? rest)) (funext fun behind => (List.append_assoc ..).symm)

theorem bytes_unread (nonempty : cs ≠ []) (unread : item? cs = none) : bytes? cs = none := by
  rw [bytes?, if_neg (by simpa using nonempty)]
  split
  · rfl
  · rename_i found
    rw [unread] at found
    cases found

/-- Decoding fails only where no item stands behind some items. -/
theorem bytes_none : bytes? cs = none ↔
    ∃ front bytes rest flaw, cs = front ++ rest ∧ Row front bytes ∧ NoItem flaw rest := by
  constructor
  · intro none
    fun_induction bytes? cs with
    | case1 => cases none
    | case2 cs nonempty stuck =>
      obtain ⟨flaw, stuck⟩ := noItem_iff.mpr ⟨by simpa using nonempty, stuck⟩
      exact ⟨[], [], cs, flaw, rfl, .nil, stuck⟩
    | case3 cs nonempty bytes rest first ih =>
      obtain ⟨item, rfl, read⟩ := item_iff.mp first
      obtain ⟨front, more, last, flaw, rfl, items, stuck⟩ := ih (Option.map_eq_none_iff.mp none)
      exact ⟨item ++ front, _, last, flaw, (List.append_assoc ..).symm, .cons read items, stuck⟩
  · rintro ⟨front, bytes, rest, flaw, rfl, items, stuck⟩
    obtain ⟨nonempty, unread⟩ := noItem_iff.mp ⟨flaw, stuck⟩
    rw [bytes_behind items, bytes_unread nonempty unread, Option.map_none]

/-- There is one place only where decoding can come to a stop. -/
theorem stop_unique {front' rest' : List Char} {bytes' : List UInt8} (one : Row front bytes)
    (other : Row front' bytes') (same : front ++ rest = front' ++ rest')
    (stuck : item? rest = none) (stuck' : item? rest' = none) : rest = rest' := by
  induction one generalizing front' bytes' with
  | nil =>
    cases other with
    | nil => exact same
    | @cons cs bytes others more item items =>
      have first : item? rest = some (bytes, others ++ rest') :=
        item_iff.mpr ⟨cs, same.trans (List.append_assoc ..), item⟩
      rw [stuck] at first
      cases first
  | @cons cs bytes others more item items ih =>
    have first : item? (front' ++ rest') = some (bytes, others ++ rest) :=
      item_iff.mpr ⟨cs, same.symm.trans (List.append_assoc ..), item⟩
    cases other with
    | nil =>
      rw [List.nil_append, stuck'] at first
      cases first
    | @cons cs' bytes' others' more' item' items' =>
      have again : item? (cs' ++ others' ++ rest') = some (bytes', others' ++ rest') :=
        item_iff.mpr ⟨cs', List.append_assoc .., item'⟩
      rw [again] at first
      exact ih items' (Prod.mk.inj (Option.some.inj first)).2.symm

/-! ## Spellings -/

theorem enclosed_unique {run run' : List Char} (one : quoted.toList = '"' :: (run ++ ['"']))
    (other : quoted.toList = '"' :: (run' ++ ['"'])) : run = run' := by
  rw [one] at other
  exact List.append_cancel_right (List.cons.inj other).2

/-- A spelling that is refused has a flaw, and one that has a flaw is refused. -/
theorem refused_iff_flaw :
    (¬ ∃ literal, StringLiteral.read quoted = .ok literal) ↔ ∃ flaw, FirstFlaw quoted flaw := by
  rw [accepted_iff]
  constructor
  · intro refused
    by_cases enclosed : ∃ run, quoted.toList = '"' :: (run ++ ['"'])
    · obtain ⟨run, enclosed⟩ := enclosed
      cases read : bytes? run with
      | some bytes =>
        have stands : Quoted quoted bytes := ⟨run, enclosed, bytes_iff.mp read⟩
        exact ⟨_, .encoding stands fun valid => refused ⟨bytes, stands, valid⟩⟩
      | none =>
        obtain ⟨front, bytes, rest, flaw, rfl, items, stuck⟩ := bytes_none.mp read
        exact ⟨flaw, .item enclosed items stuck⟩
    · exact ⟨_, .missingQuote (not_exists.mp enclosed)⟩
  · rintro ⟨flaw, first⟩ ⟨bytes, stands, valid⟩
    cases first with
    | missingQuote bare =>
      obtain ⟨run, enclosed, -⟩ := stands
      exact bare run enclosed
    | @item front rest bytes' flaw enclosed items stuck =>
      obtain ⟨run, enclosed', row⟩ := stands
      have none := bytes_none.mpr ⟨front, bytes', rest, flaw, rfl, items, stuck⟩
      rw [enclosed_unique enclosed enclosed', bytes_iff.mpr row] at none
      cases none
    | encoding stands' invalid => exact invalid (quoted_unique stands stands' ▸ valid)

theorem encoding_alone (stands : Quoted quoted bytes)
    (enclosed : quoted.toList = '"' :: (front ++ rest ++ ['"'])) {bytes' : List UInt8}
    (items : Row front bytes') : ¬ NoItem flaw rest := by
  intro stuck
  obtain ⟨run, enclosed', row⟩ := stands
  obtain ⟨nonempty, unread⟩ := noItem_iff.mp ⟨flaw, stuck⟩
  have whole : front ++ rest = run ++ [] :=
    (enclosed_unique enclosed enclosed').trans (List.append_nil run).symm
  exact nonempty (stop_unique items row whole unread rfl)

/-- No spelling has two first flaws. -/
theorem flaw_unique (one : FirstFlaw quoted flaw) (other : FirstFlaw quoted flaw') :
    flaw = flaw' := by
  cases one with
  | missingQuote bare =>
    cases other with
    | missingQuote => rfl
    | item enclosed => exact absurd enclosed (bare _)
    | encoding stands =>
      obtain ⟨run, enclosed, -⟩ := stands
      exact absurd enclosed (bare run)
  | item enclosed items stuck =>
    cases other with
    | missingQuote bare => exact absurd enclosed (bare _)
    | item enclosed' items' stuck' =>
      have unread := (noItem_iff.mp ⟨_, stuck⟩).2
      have unread' := (noItem_iff.mp ⟨_, stuck'⟩).2
      obtain rfl := stop_unique items items' (enclosed_unique enclosed enclosed') unread unread'
      exact noItem_unique stuck stuck'
    | encoding stands => exact absurd stuck (encoding_alone stands enclosed items)
  | encoding stands =>
    cases other with
    | missingQuote bare =>
      obtain ⟨run, enclosed, -⟩ := stands
      exact absurd enclosed (bare run)
    | item enclosed items stuck => exact absurd stuck (encoding_alone stands enclosed items)
    | encoding => rfl

/-! ## Tokens -/

theorem items_tail (backslash : c ≠ '\\') (items : Items (c :: cs)) : Items cs := by
  cases items with
  | plain _ _ _ items => exact items
  | escape => exact absurd rfl backslash

theorem items_escaped (items : Items ('\\' :: c :: cs)) : Items cs := by
  cases items with
  | plain _ backslash => exact absurd rfl backslash
  | escape _ items => exact items

/-- Digits mean nothing to the lexer, so it may as well start behind some of them. -/
theorem items_behind_digits {base : Nat} {digits : List Char} (spells : Spells base digits value)
    (items : Items (digits ++ rest)) : Items rest := by
  induction spells with
  | nil => exact items
  | cons digit small others ih => exact ih (items_tail (digit_plain digit).2.1 items)

/-- The lexer passes a backslash and one character. An escape may be longer, but then it goes on
with digits. -/
theorem items_behind_escape (escaped : Escaped cs bytes) (items : Items ('\\' :: (cs ++ rest))) :
    Items rest := by
  cases escaped with
  | short entry => exact items_escaped items
  | @byte escape digits byte known numbers =>
    obtain ⟨length, spells⟩ := numbers
    rcases List.mem_pair.mp known with rfl | rfl
    · exact items_behind_digits spells (items_escaped items)
    · generalize byte.toNat = value at spells
      cases spells with
      | nil => cases length
      | cons digit small others => exact items_behind_digits others (items_escaped items)
  | char known numbers =>
    rcases List.mem_pair.mp known with rfl | rfl
    · exact items_behind_digits numbers.spells (items_escaped items)
    · exact items_behind_digits numbers.spells (items_escaped items)

/-- Wherever decoding has come to in a row of items of the lexer, such a row is still ahead. -/
theorem items_behind_row (row : Row front bytes) (items : Items (front ++ rest)) : Items rest := by
  induction row with
  | nil => exact items
  | cons item others ih =>
    rw [List.append_assoc] at items
    cases item with
    | plain quote backslash newline => exact ih (items_tail backslash items)
    | escape escaped => exact ih (items_behind_escape escaped items)

/-- In a row of items of the lexer nothing but a bad escape stops decoding. -/
theorem items_stuck (items : Items cs) (stuck : NoItem flaw cs) : flaw = .escape := by
  cases stuck with
  | bareQuote =>
    cases items with
    | plain quote => exact absurd rfl quote
  | newline =>
    cases items with
    | plain _ _ newline => exact absurd rfl newline
  | lastBackslash =>
    cases items with
    | plain _ backslash => exact absurd rfl backslash
  | escape => rfl

variable {text : String} {token : Token} {literal : StringLiteral}

/-- A string token is a row of items between two quotes. -/
theorem token_items (member : token ∈ (Stream.ofText text).tokens) (string : token.kind = .string) :
    ∃ run, Items run ∧ token.text.toList = '"' :: (run ++ ['"']) := by
  obtain ⟨front, back, split⟩ := List.append_of_mem member
  obtain ⟨ahead, -, here, -⟩ := LookAhead.read_front Mark.start text.toList front back token split
  have lexes := read_lexes (LookAhead.pastAll Mark.start front).depth (seam_nil ahead)
  rw [here] at string
  rw [show (Lexeme.read _ ahead).kind = .string from string] at lexes
  rw [here, Mark.token, String.toList_ofList]
  cases lexes with
  | token form =>
    generalize (Lexeme.read _ ahead).taken = taken at form
    cases form with
    | word _ whole => cases whole
    | string items => exact ⟨_, items, rfl⟩

/-- Its spelling has no flaw but those that only decoding can see. -/
theorem token_flaw (member : token ∈ (Stream.ofText text).tokens) (string : token.kind = .string)
    (first : FirstFlaw token.text flaw) : flaw = .escape ∨ flaw = .encoding := by
  obtain ⟨run, items, enclosed⟩ := token_items member string
  cases first with
  | missingQuote bare => exact absurd enclosed (bare run)
  | item enclosed' row stuck =>
    rw [enclosed_unique enclosed enclosed'] at items
    exact .inl (items_stuck (items_behind_row row items) stuck)
  | encoding => exact .inr rfl

/-- What is read as a literal is one token, with nothing behind it. -/
theorem literal_tokens (read : StringLiteral.read quoted = .ok literal) :
    (Stream.ofText quoted).tokens =
      [⟨.string, quoted, 0, 1⟩, ⟨.finish, "", quoted.utf8ByteSize, 1⟩] := by
  have first := read_standalone read 0 [] (fun c head => by cases head)
  rw [List.append_nil] at first
  have newline : quoted.toList.count '\n' = 0 := by
    refine List.count_eq_zero.mpr ?_
    have plain := first_newline (read_first 0 quoted.toList)
    rw [first] at plain
    exact plain rfl nofun
  rw [Stream.ofText, Stream.read_of_more first rfl, CanonicalRoundTrip.read_end rfl]
  simp [Stream.tokens, Stream.cons, Mark.token, Mark.after, Mark.start, newline,
    StreamTiling.utf8Length_toList]

/-- **Decoding and lexing agree on where a string ends.** Whatever is read as a string literal is a
single token if it is lexed alone. A spelling is refused just if it has a first flaw, and the
spelling of a string token has no other than a bad escape, or bytes that are no text: its quotes are
in their places, and neither a bare quote, nor a newline, nor a last backslash is between them. -/
theorem string_ends_agree :
    (∀ quoted literal, StringLiteral.read quoted = .ok literal →
      (Stream.ofText quoted).tokens =
        [⟨.string, quoted, 0, 1⟩, ⟨.finish, "", quoted.utf8ByteSize, 1⟩]) ∧
    (∀ quoted, (∃ fault, StringLiteral.read quoted = .error fault) ↔
      ∃! flaw, FirstFlaw quoted flaw) ∧
    ∀ text, ∀ token ∈ (Stream.ofText text).tokens, token.kind = .string →
      ∀ flaw, FirstFlaw token.text flaw → flaw = .escape ∨ flaw = .encoding := by
  refine ⟨fun quoted literal => literal_tokens, fun quoted => ?_,
    fun text token member string flaw => token_flaw member string⟩
  constructor
  · rintro ⟨fault, refused⟩
    have unread : ¬ ∃ literal, StringLiteral.read quoted = .ok literal := by simp [refused]
    obtain ⟨flaw, first⟩ := refused_iff_flaw.mp unread
    exact ⟨flaw, first, fun other first' => flaw_unique first' first⟩
  · rintro ⟨flaw, first, -⟩
    cases read : StringLiteral.read quoted with
    | ok literal => exact absurd ⟨literal, read⟩ (refused_iff_flaw.mpr ⟨flaw, first⟩)
    | error fault => exact ⟨fault, rfl⟩

/-- Decoding wants two digits where the lexer sees an escaped quote. -/
theorem string_ends_agree_truncated :
    (Stream.ofText "\"a\\\"\"").tokens = [⟨.string, "\"a\\\"\"", 0, 1⟩, ⟨.finish, "", 5, 1⟩] ∧
      StringLiteral.read "\"\\x\\\"4\"" = .error (.invalidString "\"\\x\\\"4\"") ∧
        FirstFlaw "\"\\x\\\"4\"" .escape := by
  obtain ⟨alone, refused, flaws⟩ := string_ends_agree
  have read : StringLiteral.read "\"\\x\\\"4\"" = .error (.invalidString "\"\\x\\\"4\"") := by
    decide +kernel
  obtain ⟨flaw, first, -⟩ := (refused _).mp ⟨_, read⟩
  have member : (⟨.string, "\"\\x\\\"4\"", 5, 1⟩ : Token) ∈
      (Stream.ofText "eq(a,\"\\x\\\"4\")").tokens := by
    decide +kernel
  refine ⟨alone _ ⟨"\"a\\\"\"", "a\""⟩ (by decide +kernel), read, ?_⟩
  rcases flaws _ _ member rfl flaw first with rfl | rfl
  · exact first
  · cases first with
    | item _ _ stuck => cases stuck
    | encoding stands =>
      have unread : (inner? "\"\\x\\\"4\"".toList).bind bytes? = none := by decide +kernel
      obtain ⟨run, inner, items⟩ := quoted_iff.mp stands
      rw [inner, Option.bind_some, items] at unread
      cases unread

end ResourceQuery.StringEnds
