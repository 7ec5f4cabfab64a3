import ResourceQuery.Json

/-! What the text of a JSON value tells of the value. Numbers and words are rows of plain
characters, a string ends at the first quote that no backslash takes, and arrays and objects are
rows of items with commas between them (`separated`), which end at a bracket that no item starts
with. So the compact text, wherever something that ends a value follows, can be split in one way
only, and shows the value as it is written (`text_shows_value`). The indented text has the same
characters with blanks between them, and none of these is inside a string (`packed_render`). -/

namespace ResourceQuery.JsonText
open Json

/-! ## Numbers and words -/

/-- The characters of numbers and of the three words. -/
def Plain (c : Char) : Prop := c.isAlphanum = true ∨ c = '-' ∨ c = '+' ∨ c = '.'

instance : DecidablePred Plain := fun c =>
  inferInstanceAs (Decidable (c.isAlphanum = true ∨ c = '-' ∨ c = '+' ∨ c = '.'))

/-- What is written without quotes and brackets. -/
def PlainText (cs : List Char) : Prop := cs ≠ [] ∧ ∀ c ∈ cs, Plain c

theorem plain_digit {c : Char} (digit : c.isDigit = true) : Plain c := by
  simp [Plain, Char.isAlphanum, digit]

theorem plain_digits (value : Nat) : ∀ c ∈ Nat.toDigits 10 value, Plain c := fun _ member =>
  plain_digit (Nat.isDigit_of_mem_toDigits (by decide) (by decide) member)

theorem plain_natural (value : Nat) : PlainText value.repr.toList := by
  rw [Nat.repr_eq_ofList_toDigits, String.toList_ofList]
  exact ⟨Nat.toDigits_ne_nil, plain_digits value⟩

theorem plain_integer (value : Int) : PlainText (toString value).toList := by
  have written : toString value = value.repr := rfl
  rw [written, Int.repr_eq_if]
  split
  · exact plain_natural _
  · rw [String.toList_append]
    exact ⟨by simp, List.forall_mem_append.mpr
      ⟨by simp [Plain], (plain_natural (-value).toNat).2⟩⟩

/-- The digits that are left of a row without the zeros at its end. -/
theorem trimmed_plain (digits : Nat) (exponent : Int) :
    ∀ c ∈ (trimZeros (Nat.toDigits 10 digits) exponent).1, Plain c := fun c member =>
  plain_digits digits c (List.mem_of_mem_take member)

theorem plain_decimal (digits : Nat) (exponent : Int) :
    PlainText (decimalText digits exponent) := by
  have row := trimmed_plain digits exponent
  have zero : Plain '0' := .inl (by decide)
  have point : Plain '.' := .inr (.inr (.inr rfl))
  have zeros (count : Nat) : ∀ c ∈ List.replicate count '0', Plain c := fun c member =>
    List.eq_of_mem_replicate member ▸ zero
  unfold decimalText
  split
  rename_i digits' exponent' trimmed
  rw [trimmed] at row
  dsimp only
  split
  · split
    · refine ⟨by simp, ?_⟩
      simp only [List.forall_mem_append]
      exact ⟨⟨by simp [zero, point], zeros _⟩, row⟩
    · split
      · refine ⟨by simp, List.forall_mem_append.mpr ⟨?_, List.forall_mem_cons.mpr ⟨point, ?_⟩⟩⟩
        · exact fun c member => row c (List.mem_of_mem_take member)
        · exact fun c member => row c (List.mem_of_mem_drop member)
      · refine ⟨by simp, ?_⟩
        simp only [List.forall_mem_append]
        exact ⟨⟨row, zeros _⟩, by simp [zero, point]⟩
  · refine ⟨by simp, ?_⟩
    simp only [List.forall_mem_append]
    refine ⟨⟨⟨fun c member => row c (List.mem_of_mem_take member), ?_⟩, ?_⟩, plain_digits _⟩
    · split
      · simp
      · exact List.forall_mem_cons.mpr ⟨point, fun c member => row c (List.mem_of_mem_drop member)⟩
    · split <;> simp [Plain]

theorem plain_word {word : List Char} (listed : word ∈ ["null".toList, "true".toList,
    "false".toList]) : PlainText word := by
  have all : ∀ word ∈ ["null".toList, "true".toList, "false".toList],
      word ≠ [] ∧ word.all Char.isAlphanum = true := by decide
  obtain ⟨nonempty, letters⟩ := all word listed
  exact ⟨nonempty, fun c member => .inl (List.all_eq_true.mp letters c member)⟩

theorem plain_float (value : Number.Binary64) : PlainText (floatText value) := by
  cases value with
  | finite negative units =>
    have signed {magnitude : List Char} (plain : PlainText magnitude) :
        PlainText (if negative then '-' :: magnitude else magnitude) := by
      cases negative
      · exact plain
      · exact ⟨by simp, List.forall_mem_cons.mpr ⟨.inr (.inl rfl), plain.2⟩⟩
    unfold floatText
    refine signed ?_
    split
    · exact ⟨by simp, by simp [Plain]⟩
    · generalize Number.Shortest.decimal units = shortest
      obtain ⟨digits, exponent⟩ := shortest
      exact plain_decimal digits exponent
  | infinite negative => exact plain_word (by simp [floatText])
  | notANumber => exact plain_word (by simp [floatText])

/-! ## Strings -/

/-- The characters that are escaped. -/
def escapedChars : List Char := '"' :: '\\' :: (List.range 32).map Char.ofNat

/-- A backslash, a character, and then nothing that could end a string or start an escape. -/
def IsEscape (cs : List Char) : Prop :=
  ∃ c tail, cs = '\\' :: c :: tail ∧ ∀ d ∈ tail, d ≠ '"' ∧ d ≠ '\\'

theorem escaped_form {c : Char} (escaped : c ∈ escapedChars) : IsEscape (stringChar c) := by
  have all : (escapedChars.all fun c => (stringChar c).head? == some '\\' &&
      1 < (stringChar c).length && (stringChar c).tail.tail.all fun d => d != '"' && d != '\\') =
      true := by
    decide +kernel
  have here := List.all_eq_true.mp all c escaped
  cases form : stringChar c with
  | nil => simp [form] at here
  | cons b tail =>
    cases tail with
    | nil => simp [form] at here
    | cons d tail =>
      have parts : b = '\\' ∧ ∀ e ∈ tail, e ≠ '"' ∧ e ≠ '\\' := by simpa [form] using here
      exact ⟨d, tail, by rw [parts.1], parts.2⟩

theorem unescaped_form {c : Char} (unescaped : c ∉ escapedChars) :
    stringChar c = [c] ∧ c ≠ '"' ∧ c ≠ '\\' := by
  simp only [escapedChars, List.mem_cons, List.mem_map, List.mem_range, not_or, not_exists,
    not_and] at unescaped
  obtain ⟨quote, backslash, control⟩ := unescaped
  have printable : ¬ c < ' ' := fun low =>
    control c.toNat (by simpa using UInt32.lt_iff_toNat_lt.mp low) (Char.ofNat_toNat c)
  have other {d : Char} (low : d < ' ') : c ≠ d := by
    rintro rfl
    exact printable low
  refine ⟨?_, quote, backslash⟩
  simp [stringChar, quote, backslash, printable, other (d := '\x08') (by decide),
    other (d := '\x0c') (by decide), other (d := '\n') (by decide),
    other (d := '\r') (by decide), other (d := '\t') (by decide)]

/-- No character is written as the beginning of how another one is. -/
theorem stringChar_begins {c d : Char} (front : stringChar c <+: stringChar d) : c = d := by
  by_cases escaped : c ∈ escapedChars <;> by_cases escaped' : d ∈ escapedChars
  · have all : (escapedChars.all fun c => escapedChars.all fun d =>
        !(stringChar c).isPrefixOf (stringChar d) || c == d) = true := by
      decide +kernel
    have here := List.all_eq_true.mp (List.all_eq_true.mp all c escaped) d escaped'
    simpa [List.isPrefixOf_iff_prefix.mpr front] using here
  · obtain ⟨e, tail, same, -⟩ := escaped_form escaped
    rw [same, (unescaped_form escaped').1] at front
    have short := front.length_le
    simp at short
  · obtain ⟨e, tail, same, -⟩ := escaped_form escaped'
    obtain ⟨single, -, backslash⟩ := unescaped_form escaped
    rw [same, single, List.cons_prefix_cons] at front
    exact absurd front.1 backslash
  · rw [(unescaped_form escaped).1, (unescaped_form escaped').1, List.cons_prefix_cons] at front
    exact front.1

theorem stringChar_head (c : Char) : ∃ d tail, stringChar c = d :: tail ∧ d ≠ '"' := by
  by_cases escaped : c ∈ escapedChars
  · obtain ⟨e, tail, same, -⟩ := escaped_form escaped
    exact ⟨_, _, same, by decide⟩
  · obtain ⟨single, quote, -⟩ := unescaped_form escaped
    exact ⟨c, [], single, quote⟩

theorem stringChars_unique (cs : List Char) : ∀ (ds : List Char) {rest rest' : List Char},
    cs.flatMap stringChar ++ '"' :: rest = ds.flatMap stringChar ++ '"' :: rest' →
      cs = ds ∧ rest = rest' := by
  induction cs with
  | nil =>
    intro ds rest rest' same
    cases ds with
    | nil => exact ⟨rfl, (List.cons.inj same).2⟩
    | cons d ds =>
      obtain ⟨e, tail, chars, quote⟩ := stringChar_head d
      rw [List.flatMap_cons, chars] at same
      exact absurd (List.cons.inj same).1.symm quote
  | cons c cs ih =>
    intro ds rest rest' same
    cases ds with
    | nil =>
      obtain ⟨e, tail, chars, quote⟩ := stringChar_head c
      rw [List.flatMap_cons, chars] at same
      exact absurd (List.cons.inj same).1 quote
    | cons d ds =>
      rw [List.flatMap_cons, List.flatMap_cons, List.append_assoc, List.append_assoc] at same
      have fronts := List.prefix_or_prefix_of_prefix (List.prefix_append (stringChar c) _)
        (same ▸ List.prefix_append (stringChar d) _)
      obtain rfl : c = d := fronts.elim stringChar_begins fun front =>
        (stringChar_begins front).symm
      obtain ⟨rfl, rfl⟩ := ih ds (List.append_cancel_left same)
      exact ⟨rfl, rfl⟩

/-- The quotes show where a string ends, and what is between them shows the string. -/
theorem stringText_unique {text text' : String} {rest rest' : List Char}
    (same : stringText text ++ rest = stringText text' ++ rest') : text = text' ∧ rest = rest' := by
  simp only [stringText, List.cons_append, List.append_assoc, List.cons.injEq, true_and] at same
  obtain ⟨chars, rests⟩ := stringChars_unique text.toList text'.toList same
  exact ⟨String.toList_injective chars, rests⟩

/-! ## Values as they are written -/

/-- A value of which the numbers and the words are only known by their characters. -/
inductive Written where
  | bare (chars : List Char)
  | string (text : String)
  | array (values : List Written)
  | object (members : List (String × Written))

mutual

/-- How the value is written. -/
def written : Json → Written
  | .null => .bare "null".toList
  | .bool value => .bare (if value then "true".toList else "false".toList)
  | .integer value => .bare (toString value).toList
  | .float value => .bare (floatText value)
  | .string text => .string text
  | .array values => .array (writtenAll values)
  | .object members => .object (writtenMembers members)

def writtenAll : List Json → List Written
  | [] => []
  | value :: values => written value :: writtenAll values

def writtenMembers : List (String × Json) → List (String × Written)
  | [] => []
  | (key, value) :: members => (key, written value) :: writtenMembers members

end

theorem writtenAll_map (values : List Json) : writtenAll values = values.map written := by
  induction values with
  | nil => rfl
  | cons value values ih => exact congrArg (written value :: ·) ih

theorem writtenMembers_map (members : List (String × Json)) :
    writtenMembers members = members.map fun member => (member.1, written member.2) := by
  induction members with
  | nil => rfl
  | cons member members ih => exact congrArg ((member.1, written member.2) :: ·) ih

/-- The character that announces what is no number and no word. -/
def Written.opening : Written → Option Char
  | bare _ => none
  | string _ => some '"'
  | array _ => some '['
  | object _ => some '\x7b'

variable {layout : Layout} {level level' : Nat} {rest rest' : List Char}

theorem opening_plain {w : Written} {c : Char} (opening : w.opening = some c) : ¬ Plain c := by
  cases w with
  | bare => cases opening
  | string | array | object =>
    cases opening
    decide

/-- A value that is written bare. -/
theorem bare_cases (value : Json) : (∃ cs, PlainText cs ∧ written value = .bare cs ∧
    ∀ layout level, value.chars layout level = cs) ∨ (written value).opening ≠ none := by
  cases value with
  | null => exact .inl ⟨_, plain_word (by simp), rfl, fun _ _ => by simp [chars]⟩
  | bool value =>
    cases value
    · exact .inl ⟨_, plain_word (by simp), rfl, fun _ _ => by simp [chars]⟩
    · exact .inl ⟨_, plain_word (by simp), rfl, fun _ _ => by simp [chars]⟩
  | integer value => exact .inl ⟨_, plain_integer value, rfl, fun _ _ => by simp [chars]⟩
  | float value => exact .inl ⟨_, plain_float value, rfl, fun _ _ => by simp [chars]⟩
  | string | array | object => exact .inr (by simp [written, Written.opening])

theorem chars_head (value : Json) (layout : Layout) (level : Nat) : ∃ c tail,
    value.chars layout level = c :: tail ∧
      ((written value).opening = some c ∨ (written value).opening = none ∧ Plain c) := by
  rcases bare_cases value with ⟨cs, ⟨nonempty, plain⟩, bare, chars⟩ | opens
  · obtain ⟨c, tail, rfl⟩ := List.exists_cons_of_ne_nil nonempty
    exact ⟨c, tail, chars layout level, .inr ⟨by rw [bare]; rfl, plain c List.mem_cons_self⟩⟩
  · cases value with
    | null | bool | integer | float => exact absurd rfl opens
    | string text => exact ⟨_, _, rfl, .inl rfl⟩
    | array values =>
      cases values <;> exact ⟨'[', _, by simp only [chars, List.cons_append]; rfl, .inl rfl⟩
    | object members =>
      cases members <;> exact ⟨'\x7b', _, by simp only [chars, List.cons_append]; rfl, .inl rfl⟩

/-- The first character tells which sort of value it is. -/
theorem same_opening {a b : Json}
    (same : a.chars layout level ++ rest = b.chars layout level' ++ rest') :
    (written a).opening = (written b).opening := by
  obtain ⟨c, tail, chars, first⟩ := chars_head a layout level
  obtain ⟨c', tail', chars', first'⟩ := chars_head b layout level'
  rw [chars, chars'] at same
  obtain rfl : c = c' := (List.cons.inj same).1
  rcases first with opening | ⟨none, plain⟩
  · rcases first' with opening' | ⟨-, plain⟩
    · rw [opening, opening']
    · exact absurd plain (opening_plain opening)
  · rcases first' with opening' | ⟨none', -⟩
    · exact absurd plain (opening_plain opening')
    · rw [none, none']

/-! ## Rows of items -/

section
variable {α : Type} {gap : List Char} {item item' : α → List Char}

/-- What stands behind the first of some items: each of the others behind a comma and a gap. -/
def later (gap : List Char) (item : α → List Char) (as : List α) : List Char :=
  as.flatMap fun a => ',' :: (gap ++ item a)

@[simp] theorem later_nil : later gap item [] = [] := rfl

@[simp] theorem later_cons (a : α) (as : List α) :
    later gap item (a :: as) = ',' :: (gap ++ (item a ++ later gap item as)) := by
  simp [later]

/-- Items with commas between them, and a gap behind every comma. -/
def separated (gap : List Char) (item : α → List Char) : List α → List Char
  | [] => []
  | a :: as => item a ++ later gap item as

end

/-- A member of an object. -/
def memberText (layout : Layout) (level : Nat) (member : String × Json) : List Char :=
  stringText member.1 ++ ':' :: (layout.colonSpace ++ member.2.chars layout level)

theorem elements_separated (values : List Json) : elements layout level values =
    separated (layout.lineBreak level) (chars layout level) values := by
  have more (values : List Json) (value : Json) : elements layout level (value :: values) =
      value.chars layout level ++ later (layout.lineBreak level) (chars layout level) values := by
    induction values generalizing value with
    | nil => simp [elements]
    | cons next values ih => simp [elements, ih]
  cases values with
  | nil => rfl
  | cons value values => exact more values value

theorem fields_separated (members : List (String × Json)) : fields layout level members =
    separated (layout.lineBreak level) (memberText layout level) members := by
  have more (members : List (String × Json)) (member : String × Json) :
      fields layout level (member :: members) = memberText layout level member ++
        later (layout.lineBreak level) (memberText layout level) members := by
    induction members generalizing member with
    | nil => simp [fields, memberText]
    | cons next members ih => simp [fields, memberText, ih]
  cases members with
  | nil => rfl
  | cons member members => exact more members member

/-! ## Compact texts -/

@[simp] theorem compact_lineBreak (level : Nat) : Layout.compact.lineBreak level = [] := rfl

@[simp] theorem compact_colonSpace : Layout.compact.colonSpace = [] := rfl

theorem compact_array (values : List Json) : (Json.array values).chars .compact level =
    '[' :: (separated [] (chars .compact (level + 1)) values ++ [']']) := by
  cases values <;> simp [chars, elements_separated, separated]

theorem compact_object (members : List (String × Json)) :
    (Json.object members).chars .compact level =
      '\x7b' :: (separated [] (memberText .compact (level + 1)) members ++ ['\x7d']) := by
  cases members <;> simp [chars, fields_separated, separated]

/-- Nothing comes next that could belong to a number or a word. -/
def Ends (rest : List Char) : Prop := ∀ c, rest.head? = some c → ¬ Plain c

theorem plain_unique {cs ds : List Char} (plain : PlainText cs) (plain' : PlainText ds)
    (ends : Ends rest) (ends' : Ends rest') (same : cs ++ rest = ds ++ rest') :
    cs = ds ∧ rest = rest' := by
  rcases List.append_eq_append_iff.mp same with ⟨more, rfl, split⟩ | ⟨more, rfl, split⟩
  · cases more with
    | nil => exact ⟨(List.append_nil cs).symm, split⟩
    | cons c more => exact absurd (plain'.2 c (by simp)) (ends c (by rw [split]; rfl))
  · cases more with
    | nil => exact ⟨List.append_nil ds, split.symm⟩
    | cons c more => exact absurd (plain.2 c (by simp)) (ends' c (by rw [split]; rfl))

/-- The text of the item shows where the item ends, and what there is to be seen of it. -/
def Shows {α β : Type} (item : α → List Char) (seen : α → β) (a : α) : Prop :=
  ∀ b rest rest', Ends rest → Ends rest' → item a ++ rest = item b ++ rest' →
    seen a = seen b ∧ rest = rest'

section
variable {α β : Type} {item : α → List Char} {seen : α → β} {close : Char}

theorem later_ends (ends : ¬ Plain close) (as : List α) (rest : List Char) :
    Ends (later [] item as ++ close :: rest) := by
  intro c head
  cases as with
  | nil =>
    cases head
    exact ends
  | cons =>
    cases head
    decide

/-- A bracket that is no comma ends the items behind the first. -/
theorem later_shows (ends : ¬ Plain close) (other : close ≠ ',') (as : List α)
    (each : ∀ a ∈ as, Shows item seen a) (bs : List α)
    (same : later [] item as ++ close :: rest = later [] item bs ++ close :: rest') :
    as.map seen = bs.map seen ∧ rest = rest' := by
  induction as generalizing bs with
  | nil =>
    cases bs with
    | nil => exact ⟨rfl, (List.cons.inj same).2⟩
    | cons b bs => exact absurd (List.cons.inj same).1 other
  | cons a as ih =>
    obtain ⟨first, others⟩ := List.forall_mem_cons.mp each
    cases bs with
    | nil => exact absurd (List.cons.inj same).1.symm other
    | cons b bs =>
      simp only [later_cons, List.nil_append, List.cons_append, List.append_assoc,
        List.cons.injEq, true_and] at same
      obtain ⟨here, behind⟩ := first b _ _ (later_ends ends as rest) (later_ends ends bs rest') same
      obtain ⟨there, rests⟩ := ih others bs behind
      exact ⟨List.cons_eq_cons.mpr ⟨here, there⟩, rests⟩

/-- A row of items ends at a bracket that starts none of them. -/
theorem separated_shows (ends : ¬ Plain close) (other : close ≠ ',')
    (starts : ∀ a rest rest', item a ++ rest ≠ close :: rest') {as bs : List α}
    (each : ∀ a ∈ as, Shows item seen a)
    (same : separated [] item as ++ close :: rest = separated [] item bs ++ close :: rest') :
    as.map seen = bs.map seen ∧ rest = rest' := by
  cases as with
  | nil =>
    cases bs with
    | nil => exact ⟨rfl, (List.cons.inj same).2⟩
    | cons b bs =>
      rw [separated, separated, List.append_assoc] at same
      exact absurd same.symm (starts b _ _)
  | cons a as =>
    obtain ⟨first, others⟩ := List.forall_mem_cons.mp each
    cases bs with
    | nil =>
      rw [separated, separated, List.append_assoc] at same
      exact absurd same (starts a _ _)
    | cons b bs =>
      rw [separated, separated, List.append_assoc, List.append_assoc] at same
      obtain ⟨here, behind⟩ := first b _ _ (later_ends ends as rest) (later_ends ends bs rest') same
      obtain ⟨there, rests⟩ := later_shows ends other as others bs behind
      exact ⟨List.cons_eq_cons.mpr ⟨here, there⟩, rests⟩

end

/-- A value starts with none of the characters that end one. -/
theorem chars_start (value : Json) (rest rest' : List Char) :
    value.chars layout level ++ rest ≠ ']' :: rest' := by
  obtain ⟨c, tail, chars, first⟩ := chars_head value layout level
  rw [chars]
  intro same
  obtain rfl : c = ']' := (List.cons.inj same).1
  rcases first with opening | ⟨-, plain⟩
  · cases shown : written value with
    | bare | string | array | object =>
      rw [shown] at opening
      cases opening
  · exact absurd plain (by decide)

theorem memberText_start (member : String × Json) (rest rest' : List Char) :
    memberText layout level member ++ rest ≠ '\x7d' :: rest' := by
  intro same
  cases (List.cons.inj same).1

/-- Where the value is shown, so is the member. -/
theorem memberText_shows {value : Json} (key : String)
    (shows : Shows (chars .compact level) written value) :
    Shows (memberText .compact level) (fun member => (member.1, written member.2))
      (key, value) := by
  intro member rest rest' ends ends' same
  simp only [memberText, List.append_assoc, List.cons_append] at same
  obtain ⟨rfl, behind⟩ := stringText_unique same
  obtain ⟨shown, rests⟩ := shows member.2 rest rest' ends ends' (List.cons.inj behind).2
  exact ⟨congrArg (member.1, ·) shown, rests⟩

theorem bare_shows {a : Json} {cs : List Char} (plain : PlainText cs)
    (bare : written a = .bare cs) (chars : ∀ layout level, a.chars layout level = cs) :
    Shows (Json.chars .compact level) written a := by
  intro b rest rest' ends ends' same
  have none := same_opening same
  rw [bare] at none
  rcases bare_cases b with ⟨ds, plain', bare', chars'⟩ | opens
  · rw [chars, chars'] at same
    obtain ⟨rfl, rests⟩ := plain_unique plain plain' ends ends' same
    exact ⟨bare.trans bare'.symm, rests⟩
  · exact absurd none.symm opens

mutual

/-- The compact text shows where the value ends, and how the value is written. -/
theorem chars_shows (a : Json) (level : Nat) : Shows (chars .compact level) written a := by
  rcases bare_cases a with ⟨cs, plain, bare, chars⟩ | opens
  · exact bare_shows plain bare chars
  intro b rest rest' ends ends' same
  have opening := same_opening same
  cases a with
  | null | bool | integer | float => exact absurd rfl opens
  | string text =>
    cases b with
    | null | bool | integer | float | array | object => cases opening
    | string text' =>
      obtain ⟨rfl, rests⟩ := stringText_unique (by simpa only [Json.chars] using same)
      exact ⟨rfl, rests⟩
  | array values =>
    cases b with
    | null | bool | integer | float | string | object => cases opening
    | array values' =>
      simp only [compact_array, List.cons_append, List.append_assoc, List.nil_append,
        List.cons.injEq, true_and] at same
      obtain ⟨shown, rests⟩ := separated_shows (by decide) (by decide) chars_start
        (elements_show values (level + 1)) same
      exact ⟨congrArg Written.array (by simpa only [writtenAll_map] using shown), rests⟩
  | object members =>
    cases b with
    | null | bool | integer | float | string | array => cases opening
    | object members' =>
      simp only [compact_object, List.cons_append, List.append_assoc, List.nil_append,
        List.cons.injEq, true_and] at same
      obtain ⟨shown, rests⟩ := separated_shows (by decide) (by decide) memberText_start
        (members_show members (level + 1)) same
      exact ⟨congrArg Written.object (by simpa only [writtenMembers_map] using shown), rests⟩

theorem elements_show (values : List Json) (level : Nat) :
    ∀ value ∈ values, Shows (chars .compact level) written value := by
  cases values with
  | nil => exact fun _ member => absurd member List.not_mem_nil
  | cons value values =>
    exact List.forall_mem_cons.mpr ⟨chars_shows value level, elements_show values level⟩

theorem members_show (members : List (String × Json)) (level : Nat) : ∀ member ∈ members,
    Shows (memberText .compact level) (fun member => (member.1, written member.2)) member := by
  cases members with
  | nil => exact fun _ member => absurd member List.not_mem_nil
  | cons member members =>
    obtain ⟨key, value⟩ := member
    exact List.forall_mem_cons.mpr
      ⟨memberText_shows key (chars_shows value level), members_show members level⟩

end

/-- Two values with the same compact text are written the same. -/
theorem text_shows_value {a b : Json} (same : a.render .compact = b.render .compact) :
    written a = written b := by
  have ends : Ends [] := fun c head => by cases head
  refine (chars_shows a 0 b [] [] ends ends ?_).1
  rw [List.append_nil, List.append_nil]
  exact String.ofList_injective same

/-! ## Blanks between the tokens -/

/-- Where a scan over the text of a value stands. -/
inductive Scan where
  | outside
  /-- In a string. -/
  | inside
  /-- In a string, right behind a backslash. -/
  | escape

/-- The blanks that may stand between the tokens. -/
def isSpace (c : Char) : Bool := c = ' ' || c = '\n' || c = '\r' || c = '\t'

/-- The state of the scan behind a character. -/
def Scan.next : Scan → Char → Scan
  | outside, c => if c = '"' then inside else outside
  | inside, c => if c = '"' then outside else if c = '\\' then escape else inside
  | escape, _ => inside

/-- The text without the blanks outside its strings. -/
def packed : Scan → List Char → List Char
  | _, [] => []
  | .outside, c :: cs =>
    if isSpace c then packed .outside cs else c :: packed (Scan.next .outside c) cs
  | scan, c :: cs => c :: packed (scan.next c) cs

theorem packed_plain {cs : List Char} (plain : ∀ c ∈ cs, Plain c) (rest : List Char) :
    packed .outside (cs ++ rest) = cs ++ packed .outside rest := by
  induction cs with
  | nil => rfl
  | cons c cs ih =>
    obtain ⟨first, others⟩ := List.forall_mem_cons.mp plain
    have space : isSpace c = false := by
      rw [Bool.eq_false_iff]
      intro space
      simp only [isSpace, Bool.or_eq_true, decide_eq_true_eq] at space
      rcases space with ((rfl | rfl) | rfl) | rfl <;> exact absurd first (by decide)
    have quote : c ≠ '"' := by
      rintro rfl
      exact absurd first (by decide)
    simp [packed, space, Scan.next, quote, ih others]

/-- Brackets, commas and colons stay. -/
theorem packed_mark {c : Char} (mark : c ∈ ['[', ']', '\x7b', '\x7d', ',', ':'])
    (rest : List Char) : packed .outside (c :: rest) = c :: packed .outside rest := by
  have all : (['[', ']', '\x7b', '\x7d', ',', ':'].all fun c => !isSpace c && c != '"') = true := by
    decide
  have here := List.all_eq_true.mp all c mark
  simp only [Bool.and_eq_true, Bool.not_eq_eq_eq_not, Bool.not_true, bne_iff_ne, ne_eq] at here
  simp [packed, here, Scan.next]

/-- Line breaks and the space behind a colon go. -/
theorem packed_spaces {spaces : List Char} (all : ∀ c ∈ spaces, isSpace c = true)
    (rest : List Char) : packed .outside (spaces ++ rest) = packed .outside rest := by
  induction spaces with
  | nil => rfl
  | cons c spaces ih =>
    obtain ⟨first, others⟩ := List.forall_mem_cons.mp all
    simp [packed, first, ih others]

theorem lineBreak_spaces (layout : Layout) (level : Nat) :
    ∀ c ∈ layout.lineBreak level, isSpace c = true := by
  cases layout with
  | compact => exact fun c member => absurd member List.not_mem_nil
  | indented =>
    refine List.forall_mem_cons.mpr ⟨rfl, fun c member => ?_⟩
    rw [List.eq_of_mem_replicate member]
    rfl

theorem colonSpace_spaces (layout : Layout) : ∀ c ∈ layout.colonSpace, isSpace c = true := by
  cases layout <;> simp [Layout.colonSpace, isSpace]

theorem packed_stringChar (c : Char) (rest : List Char) :
    packed .inside (stringChar c ++ rest) = stringChar c ++ packed .inside rest := by
  by_cases escaped : c ∈ escapedChars
  · obtain ⟨d, tail, same, plain⟩ := escaped_form escaped
    have behind : packed .inside (tail ++ rest) = tail ++ packed .inside rest := by
      clear same
      induction tail with
      | nil => rfl
      | cons e tail ih =>
        obtain ⟨⟨quote, backslash⟩, others⟩ := List.forall_mem_cons.mp plain
        simp [packed, Scan.next, quote, backslash, ih others]
    rw [same]
    simp [packed, Scan.next, behind]
  · obtain ⟨single, quote, backslash⟩ := unescaped_form escaped
    simp [single, packed, Scan.next, quote, backslash]

/-- Strings stay as they are, with the blanks in them. -/
theorem packed_string (text : String) (rest : List Char) :
    packed .outside (stringText text ++ rest) = stringText text ++ packed .outside rest := by
  have inside (cs : List Char) : packed .inside (cs.flatMap stringChar ++ '"' :: rest) =
      cs.flatMap stringChar ++ '"' :: packed .outside rest := by
    induction cs with
    | nil => rfl
    | cons c cs ih =>
      rw [List.flatMap_cons, List.append_assoc, packed_stringChar, ih, List.append_assoc]
  have opens : packed .outside ('"' :: (text.toList.flatMap stringChar ++ '"' :: rest)) =
      '"' :: packed .inside (text.toList.flatMap stringChar ++ '"' :: rest) := rfl
  simp [stringText, opens, inside]

/-- The gaps behind the commas go. -/
theorem packed_separated {α : Type} {gap : List Char} {item item' : α → List Char}
    (spaces : ∀ c ∈ gap, isSpace c = true) (as : List α) (each : ∀ a ∈ as, ∀ rest,
      packed .outside (item a ++ rest) = item' a ++ packed .outside rest) (rest : List Char) :
    packed .outside (separated gap item as ++ rest) =
      separated [] item' as ++ packed .outside rest := by
  have more (as : List α) (each : ∀ a ∈ as, ∀ rest,
      packed .outside (item a ++ rest) = item' a ++ packed .outside rest) :
      packed .outside (later gap item as ++ rest) =
        later [] item' as ++ packed .outside rest := by
    induction as with
    | nil => rfl
    | cons a as ih =>
      obtain ⟨first, others⟩ := List.forall_mem_cons.mp each
      simp [packed_mark, packed_spaces spaces, first, ih others]
  cases as with
  | nil => rfl
  | cons a as =>
    obtain ⟨first, others⟩ := List.forall_mem_cons.mp each
    rw [separated, separated, List.append_assoc, first, more as others, List.append_assoc]

mutual

theorem packed_chars (layout : Layout) (value : Json) (level : Nat) (rest : List Char) :
    packed .outside (value.chars layout level ++ rest) =
      value.chars .compact level ++ packed .outside rest := by
  rcases bare_cases value with ⟨cs, ⟨-, plain⟩, -, chars⟩ | opens
  · rw [chars, chars, packed_plain plain]
  · cases value with
    | null | bool | integer | float => exact absurd rfl opens
    | string text =>
      simp only [chars]
      exact packed_string text rest
    | array values =>
      rw [compact_array]
      cases values with
      | nil => simp [chars, separated, packed_mark]
      | cons value values =>
        have inside := packed_separated (lineBreak_spaces layout (level + 1)) (value :: values)
          (packed_elements layout (value :: values) (level + 1))
        simp [chars, elements_separated, packed_mark, packed_spaces (lineBreak_spaces layout _),
          inside]
    | object members =>
      rw [compact_object]
      cases members with
      | nil => simp [chars, separated, packed_mark]
      | cons member members =>
        have inside := packed_separated (lineBreak_spaces layout (level + 1)) (member :: members)
          (packed_members layout (member :: members) (level + 1))
        simp [chars, fields_separated, packed_mark, packed_spaces (lineBreak_spaces layout _),
          inside]

theorem packed_elements (layout : Layout) (values : List Json) (level : Nat) :
    ∀ value ∈ values, ∀ rest, packed .outside (value.chars layout level ++ rest) =
      value.chars .compact level ++ packed .outside rest := by
  cases values with
  | nil => exact fun _ member => absurd member List.not_mem_nil
  | cons value values =>
    exact List.forall_mem_cons.mpr ⟨packed_chars layout value level,
      packed_elements layout values level⟩

theorem packed_members (layout : Layout) (members : List (String × Json)) (level : Nat) :
    ∀ member ∈ members, ∀ rest, packed .outside (memberText layout level member ++ rest) =
      memberText .compact level member ++ packed .outside rest := by
  cases members with
  | nil => exact fun _ member => absurd member List.not_mem_nil
  | cons member members =>
    obtain ⟨key, value⟩ := member
    refine List.forall_mem_cons.mpr ⟨fun rest => ?_, packed_members layout members level⟩
    have inside := packed_chars layout value level rest
    simp [memberText, packed_string, packed_mark, packed_spaces (colonSpace_spaces layout), inside]

end

/-- Without the blanks outside its strings, the text in any layout is the compact one. -/
theorem packed_render (layout : Layout) (value : Json) :
    packed .outside (value.render layout).toList = (value.render .compact).toList := by
  have whole := packed_chars layout value 0 []
  rw [List.append_nil] at whole
  rw [render, render, String.toList_ofList, String.toList_ofList, whole]
  exact List.append_nil _

end ResourceQuery.JsonText
