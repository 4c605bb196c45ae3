import FluxFront.Diagnostic.Basic

/-!
# Collections of diagnostics

Errors and warnings in the order they were reported.  A collection may have a limit: errors offered
beyond it are dropped, whatever the order of those already held.  Sorting is stable and concerns the
errors only; merging offers every error of the other collection and then sorts.
-/

namespace FluxFront.Diagnostic

/-- Errors, at most `limit` of them, and warnings. -/
structure Collection where
  errors : List Diagnostic := []
  warnings : List Diagnostic := []
  limit : Option Nat := none
deriving DecidableEq, Repr, Inhabited

namespace Collection

/-- The collection without diagnostics that keeps at most `limit` errors. -/
def empty (limit : Option Nat) : Collection := { limit }

/-- Whether one more error would be kept. -/
def hasRoom (c : Collection) : Bool :=
  match c.limit with
  | none => true
  | some n => decide (c.errors.length < n)

/-- Offers an error; beyond the limit it is dropped. -/
def addError (c : Collection) (e : Diagnostic) : Collection :=
  if c.hasRoom then { c with errors := c.errors ++ [e] } else c

/-- Drops every error but the first `n`. -/
def truncate (c : Collection) (n : Nat) : Collection := { c with errors := c.errors.take n }

/-- Appends a warning. -/
def addWarning (c : Collection) (w : Diagnostic) : Collection :=
  { c with warnings := c.warnings ++ [w] }

/-- Whether an error was kept. -/
def hasErrors (c : Collection) : Bool := !c.errors.isEmpty

/-- Whether there is a warning. -/
def hasWarnings (c : Collection) : Bool := !c.warnings.isEmpty

/-- Whether there is neither an error nor a warning. -/
def isEmpty (c : Collection) : Bool := c.errors.isEmpty && c.warnings.isEmpty

/-- The errors in the order of their places, those at one place in the order they had. -/
def sort (c : Collection) : Collection := { c with errors := c.errors.mergeSort precedes }

/-- Offers all diagnostics of another collection, then sorts. -/
def merge (c other : Collection) : Collection :=
  let offered := other.errors.foldl addError c
  sort { offered with warnings := offered.warnings ++ other.warnings }

/-- Lines of diagnostics under a label. -/
def listing (label : String) (ds : List Diagnostic) : String :=
  String.join (ds.map fun d => label ++ ": " ++ d.display ++ "\n")

/-- All diagnostics, one after the other, and their counts. -/
def display (c : Collection) : String :=
  let text := listing "error" c.errors ++ listing "warning" c.warnings
  if c.isEmpty then text
  else text ++ "\n" ++ toString c.errors.length ++ " error(s), "
    ++ toString c.warnings.length ++ " warning(s)"

/-! ## Offering errors -/

@[simp] theorem limit_addError (c : Collection) (e : Diagnostic) :
    (c.addError e).limit = c.limit := by
  unfold addError; split <;> rfl

/-- Without a limit every error is kept. -/
theorem errors_addError_of_limit_none {c : Collection} (h : c.limit = none) (e : Diagnostic) :
    (c.addError e).errors = c.errors ++ [e] := by
  simp [addError, hasRoom, h]

/-- Under a limit `n` the errors kept are the first `n` of those held and offered. -/
theorem errors_addError_of_limit_some {c : Collection} {n : Nat} (h : c.limit = some n)
    (hle : c.errors.length ≤ n) (e : Diagnostic) :
    (c.addError e).errors = (c.errors ++ [e]).take n := by
  by_cases hlt : c.errors.length < n
  · have : (c.errors ++ [e]).length ≤ n := by simp; omega
    simp [addError, hasRoom, h, hlt, List.take_of_length_le this]
  · have hn : n = c.errors.length := by omega
    simp [addError, hasRoom, h, hn]

end Collection

end FluxFront.Diagnostic
