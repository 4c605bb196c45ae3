import FluxFront.Diagnostic.Basic
import FluxFront.Text.Lines

/-!
# Diagnostics with a source snippet

The long form of a diagnostic: place, code and message, then the source line it points into with
carets below it, then note and help.  Terminal colours are optional.

* **Layout**: the source line stands behind its number and a bar; the caret line is indented by the
  width of that number and two more columns.
* **Colours**: a style is switched on in front of a text and everything is switched off behind it.
  A text that itself switches everything off gets the style switched on again there.
-/

namespace FluxFront.Diagnostic

/-- Terminal styles used in snippets. -/
inductive Style
  | bold
  | redBold
  | blueBold
  | blue
  | greenBold
deriving DecidableEq, Repr

/-- The escape sequence that switches a style on. -/
def Style.code : Style → List Char
  | bold => "\x1b[1m".toList
  | redBold => "\x1b[1;31m".toList
  | blueBold => "\x1b[1;34m".toList
  | blue => "\x1b[34m".toList
  | greenBold => "\x1b[1;32m".toList

/-- The escape sequence that switches all styles off. -/
def resetCode : List Char := "\x1b[0m".toList

/-- Repeats `code` behind every reset inside a text. -/
def restyle (code : List Char) : List Char → List Char
  | '\x1b' :: '[' :: '0' :: 'm' :: rest => resetCode ++ code ++ restyle code rest
  | c :: rest => c :: restyle code rest
  | [] => []

/-- A text in a style; without colours the text itself, and nothing for no text. -/
def Style.paint (style : Style) (colored : Bool) (text : String) : String :=
  if colored && !text.isEmpty then
    String.ofList (style.code ++ restyle style.code text.toList ++ resetCode)
  else text

/-- A number of copies of one character. -/
def copies (n : Nat) (c : Char) : String := String.ofList (List.replicate n c)

/-- How many carets point at a span: its width on one line, and at least one. -/
def caretCount (span : Span) : Nat :=
  if span.start.line = span.stop.line then max (span.stop.column - span.start.column) 1 else 1

/-- The source line of a span and the carets below it, if the text has that line. -/
def snippet? (colored : Bool) (source : String) (span : Span) : Option String :=
  if span.start.line = 0 then none else
    (Text.lines source)[span.start.line - 1]?.map fun line =>
      let number := toString span.start.line
      let bar := Style.blue.paint colored "|"
      Style.blueBold.paint colored number ++ " " ++ bar ++ " " ++ line ++ "\n"
        ++ copies (number.length + 2) ' ' ++ " " ++ bar ++ " "
        ++ copies (span.start.column - 1) ' '
        ++ Style.redBold.paint colored (copies (caretCount span) '^')

/-- The place of a span behind an optional file name. -/
def placeText (filename : Option String) (span : Span) : String :=
  match filename with
  | some name => name ++ ":" ++ span.start.display
  | none => span.start.display

/-- A labelled line of advice below a snippet. -/
def paintedAdvice (style : Style) (colored : Bool) (label : String) : Option String → String
  | none => ""
  | some text => "\n" ++ style.paint colored label ++ ": " ++ text

/-- The long form of a diagnostic about a source text. -/
def format (d : Diagnostic) (source : String) (filename : Option String) (colored : Bool) :
    String :=
  let place := match d.span with
    | some span => Style.bold.paint colored (placeText filename span) ++ ": "
    | none => ""
  let snippet := (d.span.bind (snippet? colored source)).getD ""
  place ++ Style.redBold.paint colored ("error[" ++ d.code ++ "]") ++ ": " ++ d.message ++ "\n"
    ++ snippet ++ paintedAdvice .blueBold colored "note" d.note
    ++ paintedAdvice .greenBold colored "help" d.help

end FluxFront.Diagnostic
