import ResourceQuery.Descent
import ResourceQuery.Proofs.CallOrder

/-! The buffer in front of a lexer, call by call. A buffer that holds the tokens of a stream from
one of them on hands out that token, and then it holds those behind it; a token that is pushed back
right after it was consumed is in front again. So the record of a run tells which tokens have been
consumed for good, and these are the first ones of the stream (`Sound`). -/
namespace ResourceQuery.PushbackBuffer
open Descent CallOrder

variable {text : String} {buffer : Buffer} {parser : Parser} {event : Event} {events : List Event}
  {last token : Token} {ahead tokens : List Token}

/-! ## Tokens ahead -/

/-- The buffer hands out the tokens one after the other: at most one that has been pushed back, and
then those that are ahead of the lexer. -/
inductive Holds (last : Token) : Buffer → List Token → Prop where
  | lexer {buffer : Buffer} {tokens : List Token} (empty : buffer.pushed = 0)
      (ahead : Ahead last buffer.lexer tokens) : Holds last buffer tokens
  | slot {buffer : Buffer} {token : Token} {tokens : List Token} (single : buffer.pushed = 1)
      (kept : buffer.slots[0] = some token) (ahead : Ahead last buffer.lexer tokens) :
      Holds last buffer (token :: tokens)

theorem holds_pushed (holds : Holds last buffer tokens) : buffer.pushed ≤ 1 := by
  cases holds with
  | lexer empty ahead => exact empty.le.trans zero_le_one
  | slot single kept ahead => exact single.le

theorem holds_text (text : String) :
    Holds (Stream.ofText text).last (.ofText text) (Stream.ofText text).tokens :=
  .lexer rfl (ahead_read Mark.start text.toList)

theorem ahead_next {lexer : Lexer} (ahead : Ahead last lexer (token :: tokens)) :
    lexer.nextToken.1 = token ∧ Ahead last lexer.nextToken.2 tokens := by
  obtain ⟨answer, behind⟩ := call_more ahead .repeating
  exact ⟨Option.some.inj answer, behind⟩

/-- A token is consumed out of the first slot, and stays in it. -/
theorem holds_next (holds : Holds last buffer (token :: tokens)) :
    buffer.next.1 = some token ∧ buffer.next.2.pushed = 0 ∧
      buffer.next.2.slots[0] = some token ∧ Ahead last buffer.next.2.lexer tokens := by
  obtain ⟨lexer, slots, pushed, bound⟩ := buffer
  cases holds with
  | lexer empty ahead =>
    subst empty
    obtain ⟨answer, behind⟩ := ahead_next ahead
    simp only at answer behind
    simp [Buffer.next, Buffer.fetch, answer, behind]
  | slot single kept ahead =>
    subst single
    exact ⟨kept, rfl, kept, ahead⟩

theorem holds_peek (holds : Holds last buffer (token :: tokens)) :
    buffer.peek.1 = some token ∧ Holds last buffer.peek.2 (token :: tokens) := by
  obtain ⟨lexer, slots, pushed, bound⟩ := buffer
  cases holds with
  | lexer empty ahead =>
    subst empty
    obtain ⟨answer, behind⟩ := ahead_next ahead
    refine ⟨?_, .slot rfl ?_ behind⟩ <;> simp [Buffer.peek, Buffer.fetch, answer]
  | slot single kept ahead =>
    subst single
    exact ⟨kept, .slot rfl kept ahead⟩

/-- What was consumed out of the first slot can be pushed back. -/
theorem holds_backup (empty : buffer.pushed = 0) (kept : buffer.slots[0] = some token)
    (holds : Holds last buffer tokens) : ∃ behind, buffer.backup? = some behind ∧
      behind.slots[0] = some token ∧ Holds last behind (token :: tokens) := by
  obtain ⟨lexer, slots, pushed, bound⟩ := buffer
  subst empty
  cases holds with
  | lexer empty ahead => exact ⟨_, rfl, kept, .slot rfl kept ahead⟩
  | slot single kept ahead => cases single

/-- A lexer hands out no more tokens than it has characters, and one. -/
theorem ahead_length {lexer : Lexer} (ahead : Ahead last lexer tokens) :
    tokens.length ≤ lexer.ahead.length + 1 := by
  induction ahead with
  | spent kept => exact Nat.zero_le _
  | @more lexer tokens fresh behind ih =>
    cases behind with
    | spent kept => exact Nat.succ_le_succ (Nat.zero_le _)
    | @more _ tokens unended behind =>
      have open_ended : (Lexeme.read lexer.mark.depth lexer.ahead).kind.isFinal = false := by
        cases final : (Lexeme.read lexer.mark.depth lexer.ahead).kind.isFinal with
        | false => rfl
        | true => simp [Lexer.advance, Mark.token, final] at unended
      have shorter : lexer.advance.2.ahead.length < lexer.ahead.length :=
        Lexeme.length_rest_lt open_ended
      rw [List.length_cons]
      omega

theorem holds_length (holds : Holds last buffer tokens) : tokens.length ≤ buffer.bound := by
  cases holds with
  | lexer empty ahead =>
    have few := ahead_length ahead
    unfold Buffer.bound
    omega
  | slot single kept ahead =>
    have few := ahead_length ahead
    simp only [Buffer.bound, List.length_cons]
    omega

/-! ## Records -/

/-- What a call found in the slot that it read. A token that is pushed back is not read. -/
def answer (event : Event) : Option Token :=
  match event.call with
  | .next => event.before.next.1
  | .backup => none
  | .peek => event.before.peek.1

/-- The buffer behind a call. -/
def after (event : Event) : Buffer :=
  match event.call with
  | .next => event.before.next.2
  | .backup => event.before.backup?.getD event.before
  | .peek => event.before.peek.2

/-- The record is all that happened to the buffer between the first state and the last. -/
inductive Chronicle (first : Buffer) : List Event → Buffer → Prop where
  | start : Chronicle first [] first
  | call {events : List Event} {event : Event} (sofar : Chronicle first events event.before) :
      Chronicle first (events ++ [event]) (after event)

/-- The tokens that are consumed and not pushed back, behind one more call. -/
def consume (sofar : List Token) (event : Event) : List Token :=
  match event.call with
  | .next => sofar ++ [(answer event).getD Parsing.unfilled]
  | .backup => sofar.dropLast
  | .peek => sofar

/-- The tokens that are consumed and not pushed back behind a row of calls. -/
def consumed (events : List Event) : List Token := events.foldl consume []

theorem consumed_concat (events : List Event) (event : Event) :
    consumed (events ++ [event]) = consume (consumed events) event := by
  rw [consumed, List.foldl_concat, ← consumed]

/-- What has to be true of a call and of the calls before it, where the tokens are those of a text.
-/
structure Disciplined (text : String) (earlier : List Event) (event : Event) : Prop where
  /-- No two tokens are pushed back at a time. -/
  single : event.before.pushed ≤ 1 ∧ (after event).pushed ≤ 1
  /-- A token is pushed back when none is, and the call before is the one that consumed it. -/
  direct : event.call = .backup → event.before.pushed = 0 ∧
    ∃ front consumption token, earlier = front ++ [consumption] ∧ consumption.call = .next ∧
      answer consumption = some token ∧ (after event).slots[0] = some token
  /-- Any other call reads a slot that has been filled, and finds the token whose turn it is. -/
  genuine : event.call ≠ .backup → ∃ token, answer event = some token ∧
    (Stream.ofText text).tokens[(consumed earlier).length]? = some token
  /-- What is consumed and not pushed back are the first tokens of the text. -/
  in_turn : consumed (earlier ++ [event]) <+: (Stream.ofText text).tokens

/-- A run over a text that has these tokens ahead of it, and has been disciplined so far. -/
structure Sound (text : String) (parser : Parser) (ahead : List Token) : Prop where
  holds : Holds (Stream.ofText text).last parser.buffer ahead
  told : consumed parser.events ++ ahead = (Stream.ofText text).tokens
  chronicle : Chronicle (.ofText text) parser.events parser.buffer
  disciplined : ∀ earlier event later, parser.events = earlier ++ event :: later →
    Disciplined text earlier event

theorem sound_start (text : String) :
    Sound text (.ofText text) (Stream.ofText text).tokens where
  holds := holds_text text
  told := rfl
  chronicle := .start
  disciplined earlier event later split := absurd split (by simp [Parser.ofText])

/-- One more call keeps a run sound if the call is disciplined itself. -/
theorem sound_record {call : Call} {behind : Buffer} (sound : Sound text parser ahead)
    (same : after ⟨call, parser.buffer⟩ = behind)
    (holds : Holds (Stream.ofText text).last behind tokens)
    (told : consume (consumed parser.events) ⟨call, parser.buffer⟩ ++ tokens =
      (Stream.ofText text).tokens)
    (direct : call = .backup → parser.buffer.pushed = 0 ∧
      ∃ front consumption token, parser.events = front ++ [consumption] ∧
        consumption.call = .next ∧ answer consumption = some token ∧ behind.slots[0] = some token)
    (genuine : call ≠ .backup → ∃ token, answer ⟨call, parser.buffer⟩ = some token ∧
      (Stream.ofText text).tokens[(consumed parser.events).length]? = some token) :
    Sound text (parser.record call behind) tokens := by
  subst same
  have told' : consumed (parser.events ++ [⟨call, parser.buffer⟩]) ++ tokens =
      (Stream.ofText text).tokens := by rw [consumed_concat, told]
  refine ⟨holds, told', .call sound.chronicle, fun earlier event later split => ?_⟩
  rcases List.eq_nil_or_concat later with rfl | ⟨later, final, rfl⟩
  · obtain ⟨rfl, same⟩ := List.append_inj' split rfl
    obtain rfl := List.singleton_inj.mp same
    exact ⟨⟨holds_pushed sound.holds, holds_pushed holds⟩, direct, genuine, ⟨tokens, told'⟩⟩
  · have inside : parser.events ++ [⟨call, parser.buffer⟩] =
        (earlier ++ event :: later) ++ [final] := by
      rw [List.append_assoc, List.cons_append]
      rwa [List.concat_eq_append] at split
    exact sound.disciplined earlier event later (List.append_inj' inside rfl).1

/-- The token was consumed by the last call, and is still in its slot. -/
structure Recent (parser : Parser) (token : Token) : Prop where
  empty : parser.buffer.pushed = 0
  kept : parser.buffer.slots[0] = some token
  last : ∃ front event, parser.events = front ++ [event] ∧ event.call = .next ∧
    answer event = some token

/-! ## Calls in a run -/

section Runs
variable {α β : Type} {parsing : Parsing α} {next : α → Parsing β} {value : α} {halt : Halt}
  {later : Parser} (other : Parser)

theorem bind_get (rest : Parser → Parsing α) :
    (get >>= rest).runFrom parser = (rest parser).runFrom parser := rfl

theorem bind_set (rest : PUnit → Parsing α) :
    (set other >>= rest).runFrom parser = (rest ⟨⟩).runFrom other := rfl

theorem bind_modify (change : Parser → Parser) (rest : PUnit → Parsing α) :
    (modify change >>= rest).runFrom parser = (rest ⟨⟩).runFrom (change parser) := rfl

theorem bind_refuse (fault : Fault) (next : β → Parsing α) :
    Parsing.refuse token fault >>= next = Parsing.refuse token fault := rfl

theorem bind_ok (first : parsing.runFrom parser = (.ok value, later)) :
    (parsing >>= next).runFrom parser = (next value).runFrom later := by
  have run : parsing.run.run parser = (.ok value, later) := first
  simp only [Parsing.runFrom, ExceptT.run_bind, StateT.run_bind, run]
  rfl

theorem bind_error (first : parsing.runFrom parser = (.error halt, later)) :
    (parsing >>= next).runFrom parser = (.error halt, later) := by
  have run : parsing.run.run parser = (.error halt, later) := first
  simp only [Parsing.runFrom, ExceptT.run_bind, StateT.run_bind, run]
  rfl

theorem run_next : Parsing.next.runFrom parser =
    (.ok (parser.buffer.next.1.getD Parsing.unfilled),
      parser.record .next parser.buffer.next.2) := rfl

theorem run_peek : Parsing.peek.runFrom parser =
    (.ok (parser.buffer.peek.1.getD Parsing.unfilled),
      parser.record .peek parser.buffer.peek.2) := rfl

theorem run_backup {behind : Buffer} (room : parser.buffer.backup? = some behind) :
    Parsing.backup.runFrom parser = (.ok (), parser.record .backup behind) := by
  rw [Parsing.backup, bind_get, room]
  rfl

end Runs

/-- The token whose turn it is has the place behind those that have been consumed. -/
theorem sound_turn (sound : Sound text parser (token :: ahead)) :
    (Stream.ofText text).tokens[(consumed parser.events).length]? = some token := by
  simp [← sound.told]

theorem sound_next (sound : Sound text parser (token :: ahead)) : ∃ later,
    Parsing.next.runFrom parser = (.ok token, later) ∧ Sound text later ahead ∧
      Recent later token ∧ later.depth = parser.depth := by
  obtain ⟨found, empty, kept, behind⟩ := holds_next sound.holds
  refine ⟨parser.record .next parser.buffer.next.2, ?_, ?_, ?_, rfl⟩
  · rw [run_next, found]
    rfl
  · refine sound_record sound rfl (.lexer empty behind) ?_ (fun call => by cases call)
      fun _ => ⟨token, found, sound_turn sound⟩
    have read : answer ⟨.next, parser.buffer⟩ = some token := found
    rw [consume, read, ← sound.told]
    simp
  · exact ⟨empty, kept, _, _, rfl, rfl, found⟩

theorem sound_peek (sound : Sound text parser (token :: ahead)) : ∃ later,
    Parsing.peek.runFrom parser = (.ok token, later) ∧ Sound text later (token :: ahead) ∧
      later.depth = parser.depth := by
  obtain ⟨found, holds⟩ := holds_peek sound.holds
  refine ⟨parser.record .peek parser.buffer.peek.2, ?_, ?_, rfl⟩
  · rw [run_peek, found]
    rfl
  · exact sound_record sound rfl holds sound.told (fun call => by cases call)
      fun _ => ⟨token, found, sound_turn sound⟩

/-- A token that was consumed by the last call is ahead again when it has been pushed back. -/
theorem sound_backup (sound : Sound text parser ahead) (recent : Recent parser token) : ∃ later,
    Parsing.backup.runFrom parser = (.ok (), later) ∧ Sound text later (token :: ahead) ∧
      later.depth = parser.depth := by
  obtain ⟨front, event, events, call, read⟩ := recent.last
  obtain ⟨behind, room, kept, holds⟩ := holds_backup recent.empty recent.kept sound.holds
  refine ⟨parser.record .backup behind, run_backup room, ?_, rfl⟩
  · have told : consumed parser.events = consumed front ++ [token] := by
      rw [events, consumed_concat, consume, call, read]
      rfl
    have same : after ⟨.backup, parser.buffer⟩ = behind := by
      rw [after, room]
      rfl
    refine sound_record sound same holds ?_
      (fun _ => ⟨recent.empty, front, event, token, events, call, read, kept⟩)
      fun other => absurd rfl other
    change (consumed parser.events).dropLast ++ token :: ahead = _
    rw [← sound.told, told, List.dropLast_concat, List.append_assoc]
    rfl

end ResourceQuery.PushbackBuffer
