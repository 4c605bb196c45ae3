import FluxFront.Decimal.Layout
import FluxFront.Tree.Basic

/-!
# Printing leaves

Indentation, quoted text and literals as they are written in source text.
-/

namespace FluxFront.Print

/-- The indentation of a level: four blanks each. -/
def pad (level : Nat) : String := String.ofList (List.replicate (4 * level) ' ')

/-- A character inside a pair of quotes. -/
def escapeChar (quote c : Char) : List Char :=
  if c = '\n' then ['\\', 'n']
  else if c = '\t' then ['\\', 't']
  else if c = '\r' then ['\\', 'r']
  else if c = '\x00' then ['\\', '0']
  else if c = '\\' then ['\\', '\\']
  else if c = quote then ['\\', c]
  else [c]

/-- A text inside a pair of quotes. -/
def escape (quote : Char) (text : String) : String :=
  String.ofList (text.toList.flatMap (escapeChar quote))

/-- A text between double quotes. -/
def quoted (text : String) : String := "\"" ++ escape '"' text ++ "\""

/-- A literal. -/
def literal : Literal → String
  | .int value => toString value.toNat
  | .float value => Decimal.sourceText value
  | .bool value => if value then "true" else "false"
  | .char value => "'" ++ escape '\'' value.toString ++ "'"
  | .string value => quoted value
  | .bits digits => "0b" ++ digits

/-- Texts with commas between them. -/
def separated (texts : List String) : String := ", ".intercalate texts

/-- A data layout; bare `data` is unsigned. -/
def dataLayout (layout : DataLayout) : String :=
  (if layout.isSigned then "signed " else "") ++ "data\x7b" ++ toString layout.bitWidth.toNat
    ++ "\x7d"

/-- The qualifiers behind a pointer. -/
def pointerQualifiers (q : Qualifiers) : String :=
  (if q.isConst then " const" else "") ++ (if q.isVolatile then " volatile" else "")

/-- The qualifiers in front of a variable. -/
def variableQualifiers (q : Qualifiers) : String :=
  (if q.isConst then "const " else "") ++ (if q.isVolatile then "volatile " else "")

/-- An inheritance list with its colon, bases first. -/
def inheritance (bases exclusions : List QualifiedName) : String :=
  if bases.isEmpty && exclusions.isEmpty then ""
  else " : " ++ separated (bases.map QualifiedName.display
    ++ exclusions.map fun name => "!" ++ name.display)

/-- Raw assembly. -/
def asm (raw : String) : String := "asm \x7b " ++ raw ++ " \x7d"

/-- Lines one level further in between braces; nothing between braces without lines. -/
def braced (level : Nat) (lines : List String) : String :=
  if lines.isEmpty then "\x7b\x7d"
  else "\x7b\n" ++ String.join (lines.map fun line => pad (level + 1) ++ line ++ "\n")
    ++ pad level ++ "\x7d"

/-- The text of an interpolated string and its values, each ended by a semicolon. -/
def interpolated (parts values : List String) : String :=
  let text := "i\"" ++ "\x7b\x7d".intercalate (parts.map (escape '"')) ++ "\""
  if values.isEmpty && decide (parts.length ≤ 1) then text
  else text ++ ":\x7b" ++ " ".intercalate (values.map (· ++ ";")) ++ "\x7d"

end FluxFront.Print
