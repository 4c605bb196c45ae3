import FluxFront.Decimal.Binary64

/-!
# Reading numbers

The value of a run of digits, and the number written in decimal notation: an optional sign, digits
with at most one point among them and at least one digit, and an optional exponent.  The words
`inf`, `infinity` and `nan` are numbers too, in any mixture of upper and lower case.
-/

namespace FluxFront.Decimal

/-- The value of a digit in radices up to sixteen. -/
def digitValue? (c : Char) : Option Nat :=
  if '0' ≤ c ∧ c ≤ '9' then some (c.toNat - '0'.toNat)
  else if 'a' ≤ c ∧ c ≤ 'f' then some (c.toNat - 'a'.toNat + 10)
  else if 'A' ≤ c ∧ c ≤ 'F' then some (c.toNat - 'A'.toNat + 10)
  else none

/-- The value of a digit below the radix. -/
def digitIn? (radix : Nat) (c : Char) : Option Nat :=
  (digitValue? c).filter (· < radix)

/-- The value of digits in a radix, the most significant first, going on from `value`. -/
def foldDigits? (radix : Nat) : Nat → List Char → Option Nat
  | value, [] => some value
  | value, c :: rest => (digitIn? radix c).bind fun d => foldDigits? radix (value * radix + d) rest

/-- The value of a non-empty run of digits in a radix. -/
def natural? (radix : Nat) (digits : List Char) : Option Nat :=
  if digits.isEmpty then none else foldDigits? radix 0 digits

/-- The value of a run of digits, if it fits a 64-bit word. -/
def word? (radix : Nat) (digits : List Char) : Option UInt64 :=
  (natural? radix digits).bind fun n =>
    if n < 0x10000000000000000 then some (UInt64.ofNat n) else none

/-- A 64-bit word in decimal notation, where a plus sign may lead. -/
def signedWord? : List Char → Option UInt64
  | '+' :: digits => word? 10 digits
  | digits => word? 10 digits

/-- The number nearest to `m · 10^e`.  The bounds `10^low ≤ m · 10^e < 10^high` settle numbers far
outside the finite range without the power of ten. -/
def scaled (negative : Bool) (m : Nat) (e : Int) : Binary64 :=
  let low : Int := (m.log2 * 30 / 100 : Nat) + e
  let high : Int := ((m.log2 + 1) * 31 / 100 + 1 : Nat) + e
  if m = 0 ∨ high ≤ -330 then Binary64.ofMagnitude negative 0
  else if 310 ≤ low then Binary64.infinity negative
  else Binary64.ofRatio negative (m * Nat.pow 10 e.toNat) (Nat.pow 10 (-e).toNat)

/-- An exponent part: nothing, or a mark, an optional sign and digits. -/
def exponent? : List Char → Option Int
  | [] => some 0
  | c :: rest =>
    if c = 'e' ∨ c = 'E' then
      match rest with
      | '+' :: digits => (natural? 10 digits).map Int.ofNat
      | '-' :: digits => (natural? 10 digits).map fun n => -Int.ofNat n
      | digits => (natural? 10 digits).map Int.ofNat
    else none

/-- A number without its sign. -/
def unsigned? (negative : Bool) (text : List Char) : Option Binary64 :=
  let word := String.ofList (text.map Char.toLower)
  if word = "inf" ∨ word = "infinity" then some (Binary64.infinity negative)
  else if word = "nan" then some Binary64.nan
  else
    let whole := text.takeWhile Char.isDigit
    let behind := text.dropWhile Char.isDigit
    let (fraction, behind) := match behind with
      | '.' :: rest => (rest.takeWhile Char.isDigit, rest.dropWhile Char.isDigit)
      | rest => ([], rest)
    match natural? 10 (whole ++ fraction), exponent? behind with
    | some m, some e => some (scaled negative m (e - fraction.length))
    | _, _ => none

/-- The number written in a text. -/
def number? : List Char → Option Binary64
  | '+' :: text => unsigned? false text
  | '-' :: text => unsigned? true text
  | text => unsigned? false text

example : word? 16 "fF".toList = some 255 := by decide
example : word? 10 "18446744073709551616".toList = none := by decide
example : number? "-1.5e1".toList = some ⟨0xc02e000000000000⟩ := by decide +kernel

end FluxFront.Decimal
