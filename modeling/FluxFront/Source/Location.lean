/-!
# Locations

Where a character stands in a source text.  A `Location` counts lines and columns from one, the
column in characters, and the offset in bytes of the UTF-8 form from zero.  Locations are ordered
by line, then column, then offset.

* **Walking**: `Location.next` steps over one character, `Location.after` over a run of them.
* **Crux**: walking over a run and then over another is walking over both (`after_append`), so the
  location of any place in a text does not depend on how the text was cut up on the way.
-/

namespace FluxFront

/-- A place in a source text: line and column from one, byte offset from zero. -/
structure Location where
  line : Nat
  column : Nat
  offset : Nat
deriving DecidableEq, Repr, Inhabited

namespace Location

/-- The first place of every text. -/
def start : Location := ⟨1, 1, 0⟩

/-- The place behind one character: a line feed opens the next line. -/
def next (here : Location) (c : Char) : Location :=
  if c = '\n' then ⟨here.line + 1, 1, here.offset + c.utf8Size⟩
  else ⟨here.line, here.column + 1, here.offset + c.utf8Size⟩

/-- The place behind a run of characters. -/
def after (here : Location) (text : List Char) : Location := text.foldl next here

/-- Order by line, then column, then offset. -/
def order (a b : Location) : Ordering :=
  ((compare a.line b.line).then (compare a.column b.column)).then (compare a.offset b.offset)

/-- The later of two places. -/
protected def max (a b : Location) : Location := if (a.order b).isGT then a else b

/-- The earlier of two places. -/
protected def min (a b : Location) : Location := if (a.order b).isGT then b else a

/-- The place as it is written for readers: `line:column`. -/
def display (a : Location) : String := toString a.line ++ ":" ++ toString a.column

/-! ## Walking over runs -/

@[simp] theorem after_nil (a : Location) : a.after [] = a := rfl

@[simp] theorem after_cons (a : Location) (c : Char) (text : List Char) :
    a.after (c :: text) = (a.next c).after text := rfl

/-- Walking over two runs one after the other is walking over both. -/
theorem after_append (a : Location) (s t : List Char) : a.after (s ++ t) = (a.after s).after t := by
  simp [after, List.foldl_append]

example : start.after ['a', '\n', 'é', 'b'] = ⟨2, 3, 5⟩ := by decide

end Location

end FluxFront
