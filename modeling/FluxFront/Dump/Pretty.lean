import FluxFront.Dump.Value

/-!
# Dumps as indented text

Two blanks of indentation for a level, one item or field on a line, and nothing between the brackets
of an empty list or record.  Spans are records of two locations, and a number that is not finite is
null.
-/

namespace FluxFront.Dump

/-- A hexadecimal digit. -/
def hexDigit (n : Nat) : Char := Nat.digitChar n

/-- A character inside a quoted text: quotes, backslashes and control characters are escaped. -/
def quoteChar (c : Char) : List Char :=
  if c = '"' then ['\\', '"']
  else if c = '\\' then ['\\', '\\']
  else if c = '\n' then ['\\', 'n']
  else if c = '\r' then ['\\', 'r']
  else if c = '\t' then ['\\', 't']
  else if c = '\x08' then ['\\', 'b']
  else if c = '\x0c' then ['\\', 'f']
  else if c.toNat < 0x20 then
    ['\\', 'u', '0', '0', hexDigit (c.toNat / 16), hexDigit (c.toNat % 16)]
  else [c]

/-- A quoted text. -/
def quote (content : String) : String :=
  "\"" ++ String.ofList (content.toList.flatMap quoteChar) ++ "\""

/-- The indentation of a level. -/
def pad (level : Nat) : String := String.ofList (List.replicate (2 * level) ' ')

/-- Lines one level further in between brackets, with commas behind all but the last. -/
def bracketed (opening closing : String) (level : Nat) (lines : List String) : String :=
  if lines.isEmpty then opening ++ closing
  else opening ++ "\n" ++ ",\n".intercalate (lines.map (pad (level + 1) ++ ·)) ++ "\n"
    ++ pad level ++ closing

/-- A record of fields that are written already. -/
def fields (level : Nat) (lines : List (String × String)) : String :=
  bracketed "\x7b" "\x7d" level (lines.map fun line => quote line.1 ++ ": " ++ line.2)

/-- A location. -/
def locationText (level : Nat) (l : Location) : String :=
  fields level [("line", toString l.line), ("column", toString l.column),
    ("offset", toString l.offset)]

/-- A span. -/
def spanText (level : Nat) (s : Span) : String :=
  fields level [("start", locationText (level + 1) s.start), ("end", locationText (level + 1) s.stop)]

mutual

/-- A dump, from where it stands on a line of some level. -/
def pretty : Dump → Nat → String
  | null, _ => "null"
  | bool value, _ => if value then "true" else "false"
  | number value, _ => toString value
  | float value, _ => (Decimal.Layout.dump.write? value).getD "null"
  | text value, _ => quote value
  | span value, level => spanText level value
  | list items, level => bracketed "[" "]" level (prettyItems items (level + 1))
  | record fs, level => fields level (prettyFields fs (level + 1))

/-- Items one by one. -/
def prettyItems : List Dump → Nat → List String
  | [], _ => []
  | item :: more, level => item.pretty level :: prettyItems more level

/-- Fields one by one. -/
def prettyFields : List (String × Dump) → Nat → List (String × String)
  | [], _ => []
  | (name, value) :: more, level => (name, value.pretty level) :: prettyFields more level

end

example : (list [number 1, record []]).pretty 0 = "[\n  1,\n  \x7b\x7d\n]" := by decide

end FluxFront.Dump
