import ResourceQuery.Proofs.Refusals

/-! What a diagnostic depends on. Reading stops at the first token that is wrong, and has looked at
one character behind it at most, so two texts that agree up to there share the diagnostic. The two
are compared byte by byte; that they agree in whole characters follows from both being UTF-8. -/
namespace ResourceQuery.FaultLocality
open DraftRuns DiagnosticFidelity StreamTiling LookAhead Refusals ResourceQuery.Text

variable {text text' : String}

theorem extract_left (front back : String) :
    (front ++ back).toByteArray.extract 0 front.utf8ByteSize = front.toByteArray := by
  rw [String.toByteArray_append]
  exact ByteArray.extract_append_eq_left rfl

/-- A text that agrees with another in the bytes of its first characters begins with the same
characters. -/
theorem begins_alike {front back : String}
    (agree : text'.toByteArray.extract 0 front.utf8ByteSize =
      (front ++ back).toByteArray.extract 0 front.utf8ByteSize) :
    ∃ back', text' = front ++ back' := by
  rw [extract_left] at agree
  have inside : front.utf8ByteSize ≤ text'.utf8ByteSize := by
    have sizes := congrArg ByteArray.size agree
    simp only [ByteArray.size_extract, String.size_toByteArray] at sizes
    omega
  have valid : front.rawEndPos.IsValid text' := by
    refine String.Pos.Raw.isValid_iff_isValidUTF8_extract_zero.mpr ⟨inside, ?_⟩
    rw [String.byteIdx_rawEndPos, agree]
    exact front.isValidUTF8
  obtain ⟨front', back', rfl, size⟩ := String.Pos.Raw.isValid_iff_exists_append.mp valid
  have length : front.utf8ByteSize = front'.utf8ByteSize := congrArg String.Pos.Raw.byteIdx size
  rw [length, extract_left, String.toByteArray_inj] at agree
  exact ⟨back', by rw [agree]⟩

variable {refusal : Refusal} {front : List Token} {draft : Draft} {rest : List Char} {c : Char}

/-- A token that is refused is refused in every text that is the same up to the character behind
the token. -/
theorem stops_again (stops : Stops text refusal front draft rest) {old new : List Char}
    (whole : text.toList = spelled front ++ (refusal.token.text.toList ++ c :: old))
    (whole' : text'.toList = spelled front ++ (refusal.token.text.toList ++ c :: new)) :
    (Stream.ofText text').statement = .error refusal := by
  let mark := pastAll Mark.start front
  let lexeme := Lexeme.read mark.depth rest
  have taken : refusal.token.text.toList = lexeme.taken := by
    rw [stops.token]
    exact String.toList_ofList
  rw [taken] at whole whole'
  have ahead : rest = lexeme.taken ++ c :: old :=
    List.append_cancel_left (stops.whole.symm.trans whole)
  have behind : lexeme.rest = c :: old :=
    List.append_cancel_left ((Lexeme.taken_append_rest mark.depth rest).trans ahead)
  -- The lexer stands at the same mark, and looks no further than the character behind the token.
  have reads := stops.again (lexeme.taken ++ c :: new) (.inl (by
    rw [ahead]
    cases lexeme.taken <;> rfl))
  have again : Lexeme.read mark.depth (lexeme.taken ++ c :: new) =
      ⟨lexeme.kind, lexeme.taken, c :: new⟩ :=
    read_local mark.depth rest (.inl (congrArg List.head? behind).symm)
  obtain ⟨back, tokens⟩ := read_tokens mark (lexeme.taken ++ c :: new)
  have first : mark.token ⟨lexeme.kind, lexeme.taken, c :: new⟩ = refusal.token :=
    stops.token.symm
  rw [again, first] at tokens
  refine (refused_iff Mark.start text'.toList).mpr ⟨front, back, draft, ?_, stops.run,
    stops.refuses⟩
  rw [whole', reads_tokens reads, tokens]

/-- The place of the token is the same as well. -/
theorem stops_column {handle handle' : Nat} {name : String}
    (stops : Stops text refusal front draft rest) {old new : List Char}
    (whole : text.toList = spelled front ++ old)
    (whole' : text'.toList = spelled front ++ new) :
    Diagnostic.ofRefusal ⟨handle', name, text'⟩ refusal =
      Diagnostic.ofRefusal ⟨handle, name, text⟩ refusal := by
  have place : Location.resolve text' refusal.token.pos =
      Location.resolve text refusal.token.pos := by
    rw [Location.resolve, Location.resolve, whole, whole', stops_pos stops, advance_front,
      advance_front]
  simp only [Diagnostic.ofRefusal, place]

/-- The character behind the token that is refused. -/
theorem stops_next (stops : Stops text refusal front draft rest)
    (next : String.Pos.Raw.get? text ⟨stop refusal.token⟩ = some c) : ∃ old,
      text.toList = spelled front ++ refusal.token.text.toList ++ c :: old := by
  obtain ⟨behind, whole⟩ : ∃ behind,
      text.toList = spelled front ++ refusal.token.text.toList ++ behind := by
    refine ⟨(Lexeme.read (pastAll Mark.start front).depth rest).rest, ?_⟩
    rw [stops.whole, stops.token, List.append_assoc, Mark.token, String.toList_ofList,
      Lexeme.taken_append_rest]
  have found := String.get?_of_valid (spelled front ++ refusal.token.text.toList) behind
  rw [← whole, String.ofList_toList, ← utf8Length_eq_utf8Len, utf8Length_append, ← stops_pos stops,
    ← stop_eq, next] at found
  cases behind with
  | nil => cases found
  | cons d old =>
    cases found
    exact ⟨old, whole⟩

/-- **Nothing behind the first fault matters.** A diagnostic depends on no byte of the text beyond
the character behind the token that it reports: any text that agrees up to there is refused with the
same diagnostic. -/
theorem diagnostic_ignores_rest {handle handle' : Nat} {name text text' : String}
    {diagnostic : Diagnostic} {token : Token} {c : Char}
    (refused : Tree.parse handle name text = .error diagnostic)
    (member : token ∈ (Stream.ofText text).tokens) (start : token.pos = diagnostic.pos)
    (next : String.Pos.Raw.get? text ⟨stop token⟩ = some c)
    (agree : text'.toByteArray.extract 0 (stop token + c.utf8Size) =
      text.toByteArray.extract 0 (stop token + c.utf8Size)) :
    Tree.parse handle' name text' = .error diagnostic := by
  obtain ⟨refusal, failed, rfl⟩ := parse_error refused
  obtain ⟨front, draft, rest, stops⟩ := statement_stops failed
  obtain ⟨back, split⟩ := stops.split
  obtain rfl : token = refusal.token := token_unique member (by rw [split]; simp) start
  obtain ⟨old, whole⟩ := stops_next stops next
  let begins := String.ofList (spelled front ++ refusal.token.text.toList ++ [c])
  have bytes : stop refusal.token + c.utf8Size = begins.utf8ByteSize := by
    rw [← utf8Length_toList, String.toList_ofList, utf8Length_append, utf8Length_append,
      ← stops_pos stops, ← stop_eq]
    rfl
  have parts : text = begins ++ String.ofList old := by
    rw [← String.ofList_append, List.append_assoc, List.singleton_append, ← whole,
      String.ofList_toList]
  rw [bytes, parts] at agree
  obtain ⟨end', rfl⟩ := begins_alike agree
  have whole' : (begins ++ end').toList =
      spelled front ++ refusal.token.text.toList ++ c :: end'.toList := by
    simp [begins]
  rw [List.append_assoc] at whole whole'
  rw [parse_refused (stops_again stops whole whole'), stops_column stops whole whole']

/-- Behind the number that is out of place, a string without end is not even looked at. -/
theorem diagnostic_ignores_open_string :
    Tree.parse 0 "root" "eq(é\n12)" =
        .error ⟨"root", 2, 1, 6, .grammar (.unexpected "\"12\"" "comma or right parentheses")⟩ ∧
      Tree.parse 1 "root" "eq(é\n12)\"never ended" =
        .error ⟨"root", 2, 1, 6, .grammar (.unexpected "\"12\"" "comma or right parentheses")⟩ := by
  have found : (match Tree.parse 0 "root" "eq(é\n12)" with
      | .ok _ => none
      | .error diagnostic => some diagnostic) =
        some ⟨"root", 2, 1, 6, .grammar (.unexpected "\"12\"" "comma or right parentheses")⟩ := by
    decide +kernel
  have member : ⟨.number, "12", 6, 2⟩ ∈ (Stream.ofText "eq(é\n12)").tokens := by decide +kernel
  have next : String.Pos.Raw.get? "eq(é\n12)" ⟨stop ⟨.number, "12", 6, 2⟩⟩ = some ')' := by
    decide +kernel
  cases refused : Tree.parse 0 "root" "eq(é\n12)" with
  | ok tree =>
    rw [refused] at found
    cases found
  | error diagnostic =>
    rw [refused] at found
    obtain rfl := Option.some.inj found
    exact ⟨rfl, diagnostic_ignores_rest refused member rfl next (by decide +kernel)⟩

end ResourceQuery.FaultLocality
