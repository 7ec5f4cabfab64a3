import ResourceQuery.Text.Offset

/-! Slices by bytes. A text is sliced where one of its characters starts or where it ends, and
nowhere else. -/

namespace ResourceQuery.Text

/-- The part of a text from one byte up to another. There is none if the second byte comes before
the first, if one of them is inside a character, or if one is past the end. -/
def slice? (text : String) (start stop : Nat) : Option String :=
  if start ≤ stop ∧ (⟨start⟩ : String.Pos.Raw).IsValid text ∧
      (⟨stop⟩ : String.Pos.Raw).IsValid text then
    some (String.Pos.Raw.extract text ⟨start⟩ ⟨stop⟩)
  else none

end ResourceQuery.Text
