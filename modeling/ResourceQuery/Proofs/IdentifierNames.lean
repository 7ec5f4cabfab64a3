import ResourceQuery.Proofs.HandBuilt
import ResourceQuery.Proofs.NodePlaces
import ResourceQuery.Proofs.ParenBalance

/-! The names of fields. A word is a name exactly if it consists of name characters, is not
reserved, and starts with no dot and with no digit of ASCII (`identifiers_are_names`). The decimal
digits of other scripts are name characters like any other, so a name may start with one. -/
namespace ResourceQuery.IdentifierNames
open Grammar GrammarExactness HandBuilt NodePlaces ParenBalance StreamTiling TokenForms

/-- A word that stands for a field. -/
structure IsName (word : String) : Prop where
  nonempty : word ≠ ""
  chars : ∀ c ∈ word.toList, NameChar c
  unreserved : word ≠ "null" ∧ word ≠ "true" ∧ word ≠ "false"
  operator : ∀ operator : Operator, word ≠ operator.keyword
  /-- Only the ten digits of ASCII are kept from the first place. -/
  first : ∀ c, word.toList.head? = some c → c ≠ '.' ∧ c.isDigit = false

/-- The word starts with no dot and with no decimal digit, of whatever script. -/
def StartsPlain (word : String) : Prop :=
  ∀ c, word.toList.head? = some c → c ≠ '.' ∧ Unicode.isDecimalDigit c = false

/-- The word starts with a decimal digit outside ASCII. -/
def StartsForeign (word : String) : Prop :=
  ∃ c, word.toList.head? = some c ∧ 128 ≤ c.toNat ∧ Unicode.isDecimalDigit c = true

variable {word text name : String} {token : Token}

/-! ## Tokens -/

theorem isName_iff : IsName word ↔ Form .identifier word.toList := by
  constructor
  · intro isName
    have some : word.toList ≠ [] := by simpa using isName.nonempty
    obtain ⟨c, cs, chars⟩ := List.exists_cons_of_ne_nil some
    obtain ⟨dot, digit⟩ := isName.first c (by rw [chars]; rfl)
    refine .word ⟨isName.chars, c, cs, chars, digit, dot⟩ ?_
    rw [String.ofList_toList]
    obtain ⟨null, true, false⟩ := isName.unreserved
    exact .identifier null true false isName.operator
  · intro form
    cases form with
    | word isWord whole =>
      rw [String.ofList_toList] at whole
      obtain ⟨c, cs, chars, digit, dot⟩ := isWord.first
      cases whole with
      | identifier null true false operator =>
        refine ⟨?_, isWord.names, ⟨null, true, false⟩, operator, ?_⟩
        · rintro rfl
          cases chars
        · intro d head
          rw [chars] at head
          cases head
          exact ⟨dot, digit⟩

theorem token_name (member : token ∈ (Stream.ofText text).tokens)
    (kind : token.kind = .identifier) : IsName token.text := by
  have form : Form token.kind token.text.toList := token_form member (by rw [kind]; rfl)
  rw [kind] at form
  exact isName_iff.mpr form

/-- A name by itself is read as one token. -/
theorem name_read (isName : IsName word) : ∃ finish,
    Stream.ofText word = ⟨[⟨.identifier, word, 0, 1⟩], finish⟩ ∧ finish.kind = .finish := by
  have none : ∀ c : Char, ([] : List Char).head? ≠ some c := fun c head => by cases head
  have lexes : Lexes Mark.start.depth [] .identifier word.toList [] :=
    .token (isName_iff.mp isName)
      ⟨⟨fun c last => absurd last (by simp), fun c head => absurd head (none c)⟩,
        fun c head => absurd head (none c)⟩ (by simp)
  have read := lexes_read lexes
  rw [List.append_nil] at read
  have stream : Stream.ofText word = _ := Stream.read_of_more read rfl
  rw [CanonicalRoundTrip.read_end rfl, Stream.cons, Mark.token, String.ofList_toList] at stream
  exact ⟨_, stream, rfl⟩

/-- No other word is. -/
theorem isToken_iff : IsToken .identifier word ↔ IsName word := by
  constructor
  · intro token
    have standalone := isToken_standalone token rfl
    have read : Lexeme.read 0 word.toList = ⟨.identifier, word.toList, []⟩ := by
      have alone := standalone 0 [] (fun c head => by cases head)
      rwa [List.append_nil] at alone
    obtain ⟨run, behind, -, taken, lexes⟩ := read_here 0 word.toList
    rw [read] at taken lexes
    cases lexes with
    | token form =>
      rw [← taken] at form
      exact isName_iff.mpr form
  · intro isName
    obtain ⟨finish, stream, ends⟩ := name_read isName
    exact ⟨_, finish, stream, rfl, ends⟩

/-! ## Nodes -/

/-- The names of the identifiers in a node. -/
def fieldNames (node : Node) : List String :=
  node.parts.filterMap fun part => match part with
    | .atom _ (.identifier word) => some word
    | _ => none

theorem mem_fieldNames {node : Node} :
    word ∈ fieldNames node ↔ ∃ origin, .atom origin (.identifier word) ∈ node.parts := by
  rw [fieldNames, List.mem_filterMap]
  constructor
  · rintro ⟨part, inside, named⟩
    split at named
    · cases named
      exact ⟨_, inside⟩
    · cases named
  · rintro ⟨origin, inside⟩
    exact ⟨_, inside, rfl⟩

/-- Among nodes that start with the tokens of a row, one that is an identifier starts with a token
that is. -/
theorem starts_identifier {tokens : List Token} {nodes : List Node}
    (starts : List.Forall₂ StartsWith tokens nodes) {origin : Origin}
    (member : .atom origin (.identifier word) ∈ nodes) :
    ∃ token ∈ tokens, token.kind = .identifier ∧ token.text = word := by
  induction starts with
  | nil => cases member
  | @cons token node tokens nodes first others ih =>
    rcases List.mem_cons.mp member with rfl | member
    · cases first with
      | atom leaf spelling pos =>
        cases leaf with
        | identifier kind => exact ⟨token, List.mem_cons_self, kind, rfl⟩
    · obtain ⟨token, inside, named⟩ := ih member
      exact ⟨token, List.mem_cons_of_mem _ inside, named⟩

/-- The identifiers of a tree are those of its text. -/
theorem node_name {handle : Nat} {tree : Tree} (accepted : Tree.parse handle name text = .ok tree)
    (member : word ∈ fieldNames tree.root) : IsName word := by
  obtain ⟨origin, member⟩ := mem_fieldNames.mp member
  obtain ⟨node, made, rfl⟩ := parse_ok_iff.mp accepted
  obtain ⟨-, statement, tokens, -, built⟩ := statement_made_iff.mp made
  have fits := significant_fits text
  rw [← tokens] at fits
  have bound := statement_builds_map (Origin.bind ⟨handle, name, text⟩) built
  obtain ⟨-, below, parts, starts⟩ := statement_starts (fun _ => rfl) bound fits
  change _ ∈ (node.mapOrigins _).parts at member
  generalize node.mapOrigins _ = root at bound parts member
  have inside : .atom origin (.identifier word) ∈ below := by
    rw [parts] at member
    rcases List.mem_cons.mp member with rfl | inside
    · cases bound
    · exact inside
  obtain ⟨token, found, kind, rfl⟩ := starts_identifier starts inside
  rw [tokens] at found
  exact token_name (List.mem_of_mem_filter (List.mem_of_mem_filter found)) kind

/-! ## Digits -/

/-- In ASCII a decimal digit is one of the ten. -/
theorem ascii_digit {c : Char} (ascii : c.toNat < 128) (digit : Unicode.isDecimalDigit c = true) :
    c.isDigit = true := by
  have all : ∀ n : Fin 128, Unicode.isDecimalDigit (Char.ofNat n) = true →
      (Char.ofNat n).isDigit = true := by
    decide +kernel
  have here := all ⟨c.toNat, ascii⟩
  rw [Char.ofNat_toNat] at here
  exact here digit

/-- A decimal digit of another script is a name by itself. -/
theorem foreign_digit_name {c : Char} (foreign : 128 ≤ c.toNat)
    (digit : Unicode.isDecimalDigit c = true) : IsName (String.singleton c) := by
  have chars : (String.singleton c).toList = [c] := String.toList_singleton c
  have short (reserved : String) (long : reserved.toList.length ≠ 1) :
      String.singleton c ≠ reserved := by
    rintro rfl
    exact long (by rw [chars]; rfl)
  have plain : c.isDigit = false := by
    refine Bool.eq_false_iff.mpr fun ascii => ?_
    have inside : c.toNat < 128 := alphanum_ascii (by simp [Char.isAlphanum, ascii])
    omega
  refine ⟨short "" (by decide), ?_, ⟨short _ (by decide), short _ (by decide), short _ (by decide)⟩,
    fun operator => short _ (by cases operator <;> decide), ?_⟩
  · intro d member
    rw [chars] at member
    obtain rfl := List.mem_singleton.mp member
    exact .inr (.inr (.inr ⟨foreign, .inr digit⟩))
  · intro d head
    rw [chars] at head
    cases head
    refine ⟨?_, plain⟩
    rintro rfl
    exact absurd foreign (by decide)

/-- A name starts plainly unless it starts with a digit of another script. -/
theorem startsPlain_iff (isName : IsName word) : StartsPlain word ↔ ¬ StartsForeign word := by
  constructor
  · rintro plain ⟨c, head, -, digit⟩
    cases digit.symm.trans (plain c head).2
  · intro none c head
    obtain ⟨dot, ascii⟩ := isName.first c head
    refine ⟨dot, Bool.eq_false_iff.mpr fun digit => ?_⟩
    by_cases inside : c.toNat < 128
    · cases ascii.symm.trans (ascii_digit inside digit)
    · exact none ⟨c, head, by omega, digit⟩

/-- **Identifiers are names.** Every identifier among the tokens of a text is a name, and so is that
of every node of its tree. Every name is read as an identifier by itself, and nothing else is. No
identifier starts with a dot, and one starts with a decimal digit only where that is not one of
ASCII; each of the others does start one. -/
theorem identifiers_are_names (handle : Nat) (name text : String) :
    (∀ token ∈ (Stream.ofText text).tokens, token.kind = .identifier →
      IsName token.text ∧ (StartsPlain token.text ↔ ¬ StartsForeign token.text)) ∧
    (∀ tree, Tree.parse handle name text = .ok tree → ∀ word ∈ fieldNames tree.root,
      IsName word ∧ (StartsPlain word ↔ ¬ StartsForeign word)) ∧
    (∀ word, IsToken .identifier word ↔ IsName word) ∧
    ∀ c, Unicode.isDecimalDigit c = true →
      ((∃ word, IsToken .identifier word ∧ word.toList.head? = some c) ↔ 128 ≤ c.toNat) := by
  refine ⟨?_, ?_, fun word => isToken_iff, ?_⟩
  · intro token member kind
    have isName := token_name member kind
    exact ⟨isName, startsPlain_iff isName⟩
  · intro tree accepted word member
    have isName := node_name accepted member
    exact ⟨isName, startsPlain_iff isName⟩
  · intro c digit
    constructor
    · rintro ⟨word, token, head⟩
      by_contra ascii
      have plain := ((isToken_iff.mp token).first c head).2
      rw [ascii_digit (by omega) digit] at plain
      cases plain
    · intro foreign
      exact ⟨String.singleton c, isToken_iff.mpr (foreign_digit_name foreign digit),
        congrArg List.head? (String.toList_singleton c)⟩

theorem identifiers_are_names_foreign : ∃ tree, Tree.parse 0 "root" "eq(५a,b.1)" = .ok tree ∧
    fieldNames tree.root = ["५a", "b.1"] ∧ IsName "५a" ∧ IsName "b.1" ∧ StartsPlain "b.1" ∧
    128 ≤ '५'.toNat ∧ ∃ word, IsToken .identifier word ∧ word.toList.head? = some '५' := by
  have found : (Tree.parse 0 "root" "eq(५a,b.1)").toOption.map (fun tree => fieldNames tree.root) =
      some ["५a", "b.1"] := by
    decide +kernel
  have member : ⟨.identifier, "५a", 3, 1⟩ ∈ (Stream.ofText "eq(५a,b.1)").tokens := by
    decide +kernel
  obtain ⟨tokens, nodes, -, digits⟩ := identifiers_are_names 0 "root" "eq(५a,b.1)"
  cases parsed : Tree.parse 0 "root" "eq(५a,b.1)" with
  | error diagnostic =>
    rw [parsed] at found
    cases found
  | ok tree =>
    rw [parsed] at found
    have names : fieldNames tree.root = ["५a", "b.1"] := Option.some.inj found
    obtain ⟨isName, plain⟩ := nodes tree parsed "b.1" (by simp [names])
    refine ⟨tree, rfl, names, (tokens _ member rfl).1, isName, plain.mpr ?_, by decide,
      (digits '५' (by decide +kernel)).mpr (by decide)⟩
    rintro ⟨c, head, foreign, -⟩
    cases head
    exact absurd foreign (by decide)

/-- A digit of another script stands first in a name, and the name is read. -/
theorem digit_starts_name : Unicode.isDecimalDigit '५' = true ∧
    (Stream.ofText "५").tokens = [⟨.identifier, "५", 0, 1⟩, ⟨.finish, "", 3, 1⟩] ∧
    (Tree.parse 0 "root" "eq(५,1)").toOption.map (fun tree => fieldNames tree.root) =
      some ["५"] := by
  decide +kernel

end ResourceQuery.IdentifierNames
