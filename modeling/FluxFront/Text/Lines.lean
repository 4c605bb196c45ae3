/-!
# Lines

The lines of a text.  A line ends with a line feed, or with a carriage return and a line feed; the
ending is not part of the line, and an ending at the very end of the text opens no further line.
-/

namespace FluxFront.Text

/-- A finished line, given backwards, without a carriage return at its end. -/
def closeLine : List Char → List Char
  | '\r' :: line => line.reverse
  | line => line.reverse

/-- The lines of a text whose current line, read backwards, starts with `line`. -/
def linesFrom (line : List Char) : List Char → List (List Char)
  | [] => if line.isEmpty then [] else [line.reverse]
  | c :: rest => if c = '\n' then closeLine line :: linesFrom [] rest else linesFrom (c :: line) rest

/-- The lines of a text. -/
def lines (text : String) : List String := (linesFrom [] text.toList).map String.ofList

example : linesFrom [] "a\r\n\nb\r".toList = ["a".toList, [], "b\r".toList] := by decide

end FluxFront.Text
