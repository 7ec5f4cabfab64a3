/-! Short excerpts of long texts, for messages. -/

namespace ResourceQuery.Text

/-- The longest text that is shown whole, in characters. -/
def excerptLimit : Nat := 20

/-- The text itself if it is short, and otherwise its beginning with three dots behind it. -/
def excerpt (text : String) : String :=
  if text.toList.length ≤ excerptLimit then text
  else String.ofList (text.toList.take excerptLimit) ++ "..."

end ResourceQuery.Text
