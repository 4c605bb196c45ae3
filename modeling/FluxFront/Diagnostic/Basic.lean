import FluxFront.Source.Span
import FluxFront.Diagnostic.Kind

/-!
# Diagnostics

One message about a source text: its kind, its wording, the span it points at, and optional advice.
-/

namespace FluxFront

/-- A message about a source text. -/
structure Diagnostic where
  kind : Diagnostic.Kind
  message : String
  span : Option Span := none
  note : Option String := none
  help : Option String := none
deriving DecidableEq, Repr

namespace Diagnostic

/-- A diagnostic that points at a span. -/
def located (kind : Kind) (message : String) (span : Span) : Diagnostic :=
  { kind, message, span := some span }

/-- The stable code of the diagnostic's kind. -/
def code (d : Diagnostic) : String := d.kind.code

/-- A labelled line below the message, if there is a text for it. -/
def adviceLine (label : String) : Option String → String
  | none => ""
  | some text => "\n" ++ label ++ ": " ++ text

/-- The diagnostic on one line, followed by its note and its help on lines of their own. -/
def display (d : Diagnostic) : String :=
  let place := match d.span with
    | some span => span.display ++ ": "
    | none => ""
  place ++ d.kind.phrase ++ "[" ++ d.code ++ "]: " ++ d.message
    ++ adviceLine "note" d.note ++ adviceLine "help" d.help

/-- Offsets are 64-bit words; no text reaches further than this one. -/
def greatestOffset : Nat := 0xffffffffffffffff

/-- The offset a diagnostic is sorted by; without a span it goes to the end of every text. -/
def sortKey (d : Diagnostic) : Nat :=
  match d.span with
  | some span => span.start.offset
  | none => greatestOffset

/-- Whether one diagnostic may stand before another in source order. -/
def precedes (a b : Diagnostic) : Bool := decide (a.sortKey ≤ b.sortKey)

end Diagnostic

end FluxFront
