import ResourceQuery.Text.Location
import ResourceQuery.Token.Stream

/-! The listing of the tokens of a text: one line per token, with its location, its kind and the
token itself in columns. -/

namespace ResourceQuery

/-- The text with spaces behind it until it has the given width in characters. -/
def padRight (width : Nat) (text : String) : String :=
  text.pushn ' ' (width - text.length)

/-- The line of one token. -/
def Token.listingLine (text : String) (token : Token) : String :=
  padRight 8 (Text.Location.resolve text token.pos).render ++ " " ++
    padRight 12 token.kind.name ++ " " ++ token.describe

/-- The lines of all tokens, each closed by a newline. -/
def tokenListing (text : String) : String :=
  String.join ((Stream.ofText text).tokens.map fun token => token.listingLine text ++ "\n")

end ResourceQuery
