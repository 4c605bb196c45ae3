import FluxFront.Decimal.Reading
import FluxFront.Text.Slots
import FluxFront.Text.Trim
import FluxFront.Token.Basic
import FluxFront.Tree.Basic

/-!
# Literals

The literal a token stands for.  A token usually carries its decoded value; one that does not is
decoded from its text, without escape sequences, separators or radix marks other than `0b`.
-/

namespace FluxFront.Grammar

/-- The text inside the quotes around it. -/
def unquoted (quote : Char) (text : String) : String :=
  String.ofList (Text.trimBoth (· == quote) text.toList)

/-- The literal read off the text of a token. -/
def literalOfText (kind : Token.Kind) (text : String) : Literal :=
  match kind with
  | .floatLiteral => .float ((Decimal.number? text.toList).getD .zero)
  | .charLiteral => .char ((Text.trimBoth (· == '\'') text.toList).headD '\x00')
  | .stringLiteral => .string (unquoted '"' text)
  | .bitLiteral => .bits (String.ofList (Text.dropLeadingPairs '0' 'b' text.toList))
  | _ => .int ((Decimal.signedWord? text.toList).getD 0)

/-- The literal a token stands for. -/
def literalOf (token : Token) : Literal :=
  match token.kind, token.literal with
  | .kwTrue, _ => .bool true
  | .kwFalse, _ => .bool false
  | _, some (.int value) => .int value
  | _, some (.float value) => .float value
  | _, some (.char value) => .char value
  | _, some (.string value) => .string value
  | _, some (.bits digits) => .bits digits
  | kind, _ => literalOfText kind token.lexeme

/-- The parts of an interpolated string between its slots. -/
def partsOf (token : Token) : List String :=
  match token.literal with
  | some (.parts texts) => texts
  | _ =>
    let text := Text.trimBoth (· == '"') (token.lexeme.toList.dropWhile (· == 'i'))
    (Text.splitSlots text).map String.ofList

end FluxFront.Grammar
