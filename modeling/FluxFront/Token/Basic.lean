import FluxFront.Source.Span
import FluxFront.Decimal.Binary64
import FluxFront.Token.Kind

/-!
# Tokens

A token is a kind, the text it was read from, where that text stands, and, for a literal, the value
the text stands for.
-/

namespace FluxFront

/-- The decoded value of a literal token. -/
inductive Token.Value
  | int (value : UInt64)
  | float (value : Binary64)
  | char (value : Char)
  | string (value : String)
  /-- The binary digits of a bit literal, without their mark. -/
  | bits (digits : String)
  /-- The text of an interpolated string between its slots. -/
  | parts (texts : List String)
deriving DecidableEq, Repr

/-- A token of a source text. -/
structure Token where
  kind : Token.Kind
  lexeme : String
  span : Span
  literal : Option Token.Value := none
deriving DecidableEq, Repr, Inhabited

namespace Token

/-- The end of a text, as the token standing there. -/
def endAt (here : Location) : Token := { kind := .eof, lexeme := "", span := .single here }

/-- The token as messages call it: names and plain literals with their text. -/
def describe (t : Token) : String :=
  match t.kind with
  | .identifier => "identifier '" ++ t.lexeme ++ "'"
  | .intLiteral | .floatLiteral | .charLiteral | .stringLiteral | .bitLiteral =>
    t.kind.describe ++ " " ++ t.lexeme
  | kind => kind.describe

end Token

end FluxFront
