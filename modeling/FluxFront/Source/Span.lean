import FluxFront.Source.Location

/-!
# Spans

The half-open stretch of text between two locations.  Every token, node and diagnostic carries one.
Containment and emptiness look at the byte offsets only; the merging operations use the full order
on locations.
-/

namespace FluxFront

/-- The text from `start` up to, and not including, `stop`. -/
structure Span where
  start : Location
  stop : Location
deriving DecidableEq, Repr, Inhabited

namespace Span

/-- The empty span at a place. -/
def single (a : Location) : Span := ⟨a, a⟩

/-- The smallest span over two others. -/
def merge (a b : Span) : Span := ⟨a.start.min b.start, a.stop.max b.stop⟩

/-- The span from the start of `a` to the later of the two ends. -/
def through (a b : Span) : Span := ⟨a.start, b.stop.max a.stop⟩

/-- Whether `b` lies inside `a`, judged by byte offsets. -/
def contains (a b : Span) : Bool :=
  decide (a.start.offset ≤ b.start.offset) && decide (b.stop.offset ≤ a.stop.offset)

/-- Whether no byte lies in the span. -/
def isEmpty (a : Span) : Bool := a.start.offset == a.stop.offset

/-- The span for readers: one place when both ends agree, otherwise `start-stop`. -/
def display (a : Span) : String :=
  if a.start = a.stop then a.start.display else a.start.display ++ "-" ++ a.stop.display

/-! ## Containment is a preorder -/

@[simp] theorem contains_self (a : Span) : a.contains a = true := by simp [contains]

theorem contains_trans {a b c : Span} (hab : a.contains b = true) (hbc : b.contains c = true) :
    a.contains c = true := by
  simp only [contains, Bool.and_eq_true, decide_eq_true_eq] at *
  omega

example : (single ⟨3, 4, 9⟩).display = "3:4" := by decide

end Span

end FluxFront
