import FluxFront.Decimal.Reading
import FluxFront.Diagnostic.Basic
import FluxFront.Text.Trim

/-!
# Failures outside of source text

Diagnostics about what goes wrong around a parse: inside of the program, when a file is read, and
when data is written or read.

A message about data may end with its place, `at line 3 column 7`.  The place is written anew with
its numbers in plain form, and line zero means that there is no place to write.
-/

namespace FluxFront.Diagnostic

/-- Where a failure outside of source text comes from. -/
inductive Failure
  | internal
  | input
  | data
deriving DecidableEq, Repr

/-- What stands in front of the line of a place. -/
def lineMark : String := " at line "

/-- What stands between the line and the column of a place. -/
def columnMark : String := " column "

/-- A message without the place at its end, and the line and the column of that place.  Both are
64-bit words. -/
def splitPlace? (message : List Char) : Option (List Char × UInt64 × UInt64) := do
  let (text, place) ← Text.splitLast? lineMark.toList message
  let line ← Decimal.word? 10 (place.takeWhile Char.isDigit)
  let behind ← Text.behind? columnMark.toList (place.dropWhile Char.isDigit)
  let column ← Decimal.word? 10 behind
  return (text, line, column)

/-- A message about data with its place in plain form. -/
def dataMessage (message : String) : String :=
  match splitPlace? message.toList with
  | none => message
  | some (text, line, column) =>
    if line = 0 then String.ofList text
    else String.ofList text ++ lineMark ++ toString line.toNat ++ columnMark
      ++ toString column.toNat

/-- The diagnostic about a failure. -/
def ofFailure (failure : Failure) (message : String) : Diagnostic :=
  match failure with
  | .internal => { kind := .internalError, message }
  | .input => { kind := .ioError, message }
  | .data => { kind := .serializationError, message := dataMessage message }

example : splitPlace? "x at line 03 column 007".toList = some (['x'], 3, 7) := by decide
example : splitPlace? "x at line 3 column 7.".toList = none := by decide

end FluxFront.Diagnostic
