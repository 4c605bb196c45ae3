import FluxFront.Decimal.Layout
import FluxFront.Source.Span

/-!
# Structured dumps

A `Dump` is the outside form of a value: null, truth values, numbers, texts, lists and records with
their fields in order.  Spans and floating-point numbers stay what they are until the dump is
written, since different outputs write them differently.
-/

namespace FluxFront

/-- The outside form of a value. -/
inductive Dump
  | null
  | bool (value : Bool)
  | number (value : Nat)
  | float (value : Binary64)
  | text (value : String)
  | span (value : Span)
  | list (items : List Dump)
  | record (fields : List (String × Dump))

namespace Dump

/-- The dump of a value that may be absent. -/
def ofOption {α : Type} (f : α → Dump) : Option α → Dump
  | none => null
  | some a => f a

/-- The dump of a list. -/
def ofList {α : Type} (f : α → Dump) (items : List α) : Dump := list (items.map f)

/-- A list of texts. -/
def texts (items : List String) : Dump := ofList text items

/-- A record of one field, named for the case at hand. -/
def variant (name : String) (payload : Dump) : Dump := record [(name, payload)]

end Dump

end FluxFront
