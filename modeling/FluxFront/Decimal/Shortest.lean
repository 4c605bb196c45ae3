import FluxFront.Decimal.Binary64

/-!
# The fewest digits that read back

A finite number `m · 2^q` stands for every real between its two neighbours' midpoints; the midpoints
belong to it when `m` is even.  `shortest` looks for the decimal `d · 10^e` with the fewest digits in
that interval, and of those for the one nearest to the number.

* **Program**: for `n = 1, 2, …` digits, the two neighbours of the number on the decimal grid with
  `n` digits are tested by exact arithmetic; the first grid with a hit wins, and of two hits the
  nearer.  Seventeen digits always suffice.
* **Scale**: all quantities are multiples of one unit `2^unit`, so that the number, its interval and
  the grid are whole numbers after multiplication by one denominator.
-/

namespace FluxFront.Decimal

/-- Which way an exact tie between two candidates goes. -/
inductive Tie
  | up
  | toEven
deriving DecidableEq, Repr

/-- The decimal `digits · 10^exponent`. -/
structure Scientific where
  digits : Nat
  exponent : Int
deriving DecidableEq, Repr, Inhabited

/-- A positive number and the interval that rounds to it, over a common denominator. -/
structure Interval where
  /-- Numerator of the lower end. -/
  low : Nat
  /-- Numerator of the number itself. -/
  value : Nat
  /-- Numerator of the upper end. -/
  high : Nat
  denominator : Nat
  /-- Whether the ends belong to the interval. -/
  closed : Bool
deriving Repr

/-- The interval of a positive significand `m` and exponent `q`.  Below a power of two the next
number is half as far away, except at the bottom of the range. -/
def Interval.ofParts (m : Nat) (q : Int) : Interval :=
  let narrow : Bool := decide (m = Binary64.hiddenBit) && decide (-1074 < q)
  let scale := Nat.pow 2 q.toNat
  { low := (4 * m - (if narrow then 1 else 2)) * scale
    value := 4 * m * scale
    high := (4 * m + 2) * scale
    denominator := 4 * Nat.pow 2 (-q).toNat
    closed := m % 2 == 0 }

/-- Whether the interval holds `n / (scale · denominator)` for a number `n`. -/
def Interval.holds (i : Interval) (scale n : Nat) : Bool :=
  if i.closed then decide (i.low * scale ≤ n) && decide (n ≤ i.high * scale)
  else decide (i.low * scale < n) && decide (n < i.high * scale)

/-- The neighbour to take on the grid of step `10^e`, if one lies in the interval. -/
def Interval.onGrid? (i : Interval) (tie : Tie) (e : Int) : Option Nat :=
  let up := Nat.pow 10 e.toNat * i.denominator
  let scale := Nat.pow 10 (-e).toNat
  let below := i.value * scale / up
  let rest := 2 * (i.value * scale % up)
  let nearer := if rest < up then below else if up < rest then below + 1 else
    match tie with
    | .up => below + 1
    | .toEven => below + below % 2
  match i.holds scale (below * up), i.holds scale ((below + 1) * up) with
  | true, true => some nearer
  | true, false => some below
  | false, true => some (below + 1)
  | false, false => none

/-- The greatest `e` with `10^e ≤ value`, found downwards from a bound. -/
def leadingPower (i : Interval) : Nat → Int → Int
  | 0, e => e
  | fuel + 1, e =>
    if Nat.pow 10 e.toNat * i.denominator ≤ i.value * Nat.pow 10 (-e).toNat then e
    else leadingPower i fuel (e - 1)

/-- Tries the grids of step `10^e`, `10^(e-1)`, and so on. -/
def searchGrids (i : Interval) (tie : Tie) : Nat → Int → Scientific
  | 0, e => ⟨i.value * Nat.pow 10 (-e).toNat / (Nat.pow 10 e.toNat * i.denominator), e⟩
  | fuel + 1, e =>
    match i.onGrid? tie e with
    | some d => ⟨d, e⟩
    | none => searchGrids i tie fuel (e - 1)

/-- The same decimal without zeros at the end of its digits. -/
def dropZeros : Nat → Scientific → Scientific
  | 0, s => s
  | fuel + 1, s =>
    if s.digits ≠ 0 ∧ s.digits % 10 = 0 then dropZeros fuel ⟨s.digits / 10, s.exponent + 1⟩ else s

/-- The decimal with the fewest digits that reads back as a positive finite number. -/
def shortest (tie : Tie) (x : Binary64) : Scientific :=
  let (m, q) := x.parts
  let i := Interval.ofParts m q
  let guess : Int := ((m.log2 : Int) + q) * 30103 / 100000 + 1
  let top := leadingPower i 4 guess
  dropZeros 20 (searchGrids i tie 17 top)

example : shortest .up ⟨0x3fb999999999999a⟩ = ⟨1, -1⟩ := by decide +kernel
example : shortest .up ⟨1⟩ = ⟨5, -324⟩ := by decide +kernel
example : shortest .toEven ⟨0x44b52d02c7e14af6⟩ = ⟨1, 23⟩ := by decide +kernel

end FluxFront.Decimal
