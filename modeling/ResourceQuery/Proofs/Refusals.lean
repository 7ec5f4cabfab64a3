import ResourceQuery.Proofs.DiagnosticFidelity
import ResourceQuery.Proofs.LookAhead

/-! Where reading stops. A text is refused at one token, and by the draft that the tokens in front
of it have made; no token behind it has a say (`refused_iff`). `Stops` gathers what is known of that
place. -/
namespace ResourceQuery.Refusals
open DraftRuns DiagnosticFidelity StreamTiling LookAhead
open CanonicalRoundTrip (Reads)

variable {draft : Draft} {token : Token} {front back : List Token} {fault : Fault}
  {refusal : Refusal}

/-- The draft cannot go on with the token, or cannot end with it if it is a last one. -/
def Refuses (draft : Draft) (token : Token) (fault : Fault) : Prop :=
  if token.kind.isFinal then draft.conclude token = .error fault
  else draft.accept token = .error fault

/-- A text is refused at the token that the draft behind those before it refuses. -/
theorem refused_iff (mark : Mark) (cs : List Char) :
    (Stream.read mark cs).statement = .error refusal ↔ ∃ front back draft,
      (Stream.read mark cs).tokens = front ++ refusal.token :: back ∧
        front.foldlM Draft.take .start = .ok draft ∧
        Refuses draft refusal.token refusal.fault := by
  obtain ⟨more, final⟩ := read_final mark cs
  generalize Stream.read mark cs = stream at more final
  rw [statement_error_iff]
  constructor
  · rintro (⟨front, back, draft, split, run, refused⟩ | ⟨draft, run, same, refused⟩)
    · refine ⟨front, back ++ [stream.last], draft, ?_, run, ?_⟩
      · rw [Stream.tokens, split, List.append_assoc, List.cons_append]
      · have open_ended := more refusal.token (by rw [split]; simp)
        rwa [Refuses, open_ended, if_neg (by decide)]
    · refine ⟨stream.body, [], draft, by rw [same]; rfl, run, ?_⟩
      rwa [Refuses, same, final, if_pos rfl]
  · rintro ⟨front, back, draft, split, run, refused⟩
    rcases List.eq_nil_or_concat back with rfl | ⟨middle, last, rfl⟩
    · obtain ⟨rfl, same⟩ := List.append_inj' split rfl
      have last : refusal.token = stream.last := (List.cons.inj same).1.symm
      rw [Refuses, last, final, if_pos rfl] at refused
      exact .inr ⟨draft, run, last, refused⟩
    · rw [List.concat_eq_append, ← List.cons_append, ← List.append_assoc] at split
      obtain ⟨body, -⟩ := List.append_inj' split rfl
      have open_ended := more refusal.token (by rw [body]; simp)
      rw [Refuses, open_ended, if_neg (by decide)] at refused
      exact .inl ⟨front, middle, draft, body, run, refused⟩

variable {text name : String} {handle : Nat}

/-- The tokens in front of the one that is refused, the draft that they make, and the characters
from the refused token on. -/
structure Stops (text : String) (refusal : Refusal) (front : List Token) (draft : Draft)
    (rest : List Char) : Prop where
  split : ∃ back, (Stream.ofText text).tokens = front ++ refusal.token :: back
  whole : text.toList = spelled front ++ rest
  token : refusal.token = (pastAll Mark.start front).token
    (Lexeme.read (pastAll Mark.start front).depth rest)
  run : front.foldlM Draft.take .start = .ok draft
  refuses : Refuses draft refusal.token refusal.fault
  /-- The tokens in front are made again in front of other characters that leave them alone. -/
  again : ∀ new, new.head? = rest.head? ∨ LexemeSpelling.Delimited new →
    Reads Mark.start (spelled front ++ new) front (pastAll Mark.start front) new

theorem statement_stops (failed : (Stream.ofText text).statement = .error refusal) :
    ∃ front draft rest, Stops text refusal front draft rest := by
  obtain ⟨front, back, draft, split, run, refuses⟩ :=
    (refused_iff Mark.start text.toList).mp failed
  obtain ⟨rest, whole, token, again⟩ :=
    read_front Mark.start text.toList front back refusal.token split
  exact ⟨front, draft, rest, ⟨back, split⟩, whole, token, run, refuses, again⟩

theorem stops_pos {front : List Token} {rest : List Char}
    (stops : Stops text refusal front draft rest) :
    refusal.token.pos = Text.utf8Length (spelled front) := by
  obtain ⟨back, split⟩ := stops.split
  simpa [Mark.start] using
    (read_place Mark.start text.toList front back refusal.token split).1

theorem parse_refused (failed : (Stream.ofText text).statement = .error refusal) :
    Tree.parse handle name text = .error (.ofRefusal ⟨handle, name, text⟩ refusal) := by
  rw [← readStatement_eq_statement] at failed
  simp only [Tree.parse, Tree.ofSource, failed]

end ResourceQuery.Refusals
