import FluxFront.Decimal.Shortest

/-!
# Writing numbers

How the shortest digits of a number are laid out.  A `Layout` is the list of decisions that one
output format takes: which numbers are written positionally and how the exponent looks.  At least
one digit always stands behind the point of a positional number.
-/

namespace FluxFront.Decimal

/-- The decisions of one output format. -/
structure Layout where
  /-- Which of two equally near shortest decimals is taken. -/
  tie : Tie
  /-- Least power of ten of a leading digit that is still written positionally. -/
  lowest : Int
  /-- Greatest power of ten of a leading digit that is still written positionally. -/
  highest : Int
  /-- Whether an exponent that is not negative carries a plus sign. -/
  plusSign : Bool

/-- The decimal digits of a number, the most significant first. -/
def digits (n : Nat) : List Char := Nat.toDigits 10 n

/-- Digits with the decimal point `point` places from their left end. -/
def positional (ds : List Char) (point : Int) : List Char :=
  if point ≤ 0 then '0' :: '.' :: (List.replicate (-point).toNat '0' ++ ds)
  else if ds.length ≤ point.toNat then
    ds ++ List.replicate (point.toNat - ds.length) '0' ++ ['.', '0']
  else ds.take point.toNat ++ '.' :: ds.drop point.toNat

/-- One digit, the further digits behind a point, and the exponent. -/
def exponential (plusSign : Bool) (ds : List Char) (exponent : Int) : List Char :=
  let significand := match ds with
    | d :: d' :: more => d :: '.' :: d' :: more
    | short => short
  let sign := if exponent < 0 then ['-'] else if plusSign then ['+'] else []
  significand ++ 'e' :: (sign ++ digits exponent.natAbs)

/-- The magnitude of a finite number in a layout. -/
def Layout.magnitude (layout : Layout) (x : Binary64) : List Char :=
  if x.magnitude = 0 then ['0', '.', '0'] else
    let s := shortest layout.tie x
    let ds := digits s.digits
    let point : Int := ds.length + s.exponent
    if layout.lowest ≤ point - 1 ∧ point - 1 ≤ layout.highest then positional ds point
    else exponential layout.plusSign ds (point - 1)

/-- A finite number in a layout. -/
def Layout.write? (layout : Layout) (x : Binary64) : Option String :=
  if x.isFinite then
    some ((if x.isNegative then "-" else "") ++ String.ofList (layout.magnitude x))
  else none

/-- Numbers in source text: positional from `0.0001` up to but not including `1e16`. -/
def Layout.source : Layout := { tie := .up, lowest := -4, highest := 15, plusSign := false }

/-- Numbers in a dump: positional from `0.00001` up to but not including `1e16`, and exponents always
carry a sign. -/
def Layout.dump : Layout := { tie := .toEven, lowest := -5, highest := 15, plusSign := true }

/-- A number in source text, where the numbers that are not finite have names. -/
def sourceText (x : Binary64) : String :=
  (Layout.source.write? x).getD
    (if x.isNaN then "NaN" else if x.isNegative then "-inf" else "inf")

example : positional ['1', '5'] 4 = "1500.0".toList := by decide
example : positional ['1', '5'] (-2) = "0.0015".toList := by decide
example : exponential true ['1', '5'] 16 = "1.5e+16".toList := by decide

end FluxFront.Decimal
