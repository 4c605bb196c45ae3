/-!
# Binary floating-point numbers of 64 bits

A `Binary64` is the 64-bit interchange form: a sign, eleven bits of exponent and fifty-two bits of
fraction.  Everything is exact arithmetic on `Nat` and `Int`, so a statement about a number is a
statement about its bits.

* **Program**: `Binary64.parts` reads the bits as `m · 2^q`; `Binary64.ofRatio` rounds a quotient
  of two numbers to the nearest representable number, a half going to the even significand.
* **Crux**: with `m` including the hidden bit, the bits of `m · 2^q` are `(q + 1074) · 2^52 + m`
  in the normal and the subnormal range alike, and a significand that rounds up to `2^53` carries
  into the exponent by itself.
-/

namespace FluxFront

/-- A floating-point number, as its 64 bits. -/
structure Binary64 where
  bits : UInt64
deriving DecidableEq, Repr, Inhabited

namespace Binary64

/-- The bit of the significand that is not stored, and the step from one exponent to the next. -/
def hiddenBit : Nat := 0x10000000000000

/-- The sign of a number. -/
def signBit : Nat := 0x8000000000000000

/-- Magnitude bits of infinity; larger magnitudes are not numbers. -/
def infinityBits : Nat := 0x7ff * hiddenBit

/-- The number with the given sign and magnitude bits. -/
def ofMagnitude (negative : Bool) (magnitude : Nat) : Binary64 :=
  ⟨UInt64.ofNat (if negative then signBit + magnitude else magnitude)⟩

/-- Positive zero. -/
def zero : Binary64 := ⟨0⟩

/-- The infinity of the given sign. -/
def infinity (negative : Bool) : Binary64 := ofMagnitude negative infinityBits

/-- The quiet not-a-number. -/
def nan : Binary64 := ofMagnitude false (infinityBits + hiddenBit / 2)

/-- The bits without the sign. -/
def magnitude (x : Binary64) : Nat := x.bits.toNat % signBit

/-- Whether the sign bit is set. -/
def isNegative (x : Binary64) : Bool := decide (signBit ≤ x.bits.toNat)

/-- Whether the number is neither infinite nor a not-a-number. -/
def isFinite (x : Binary64) : Bool := decide (x.magnitude < infinityBits)

/-- Whether the number is a not-a-number. -/
def isNaN (x : Binary64) : Bool := decide (infinityBits < x.magnitude)

/-- Significand `m` and exponent `q` of the magnitude `m · 2^q` of a finite number. -/
def parts (x : Binary64) : Nat × Int :=
  let exponent : Nat := x.magnitude / hiddenBit
  let fraction : Nat := x.magnitude % hiddenBit
  if exponent = 0 then (fraction, -1074) else (fraction + hiddenBit, (exponent : Int) - 1075)

/-- The quotient of `n` and `d`, to the nearest whole number, a half to the even one. -/
def roundQuotient (n d : Nat) : Nat :=
  let floor := n / d
  let twice := 2 * (n % d)
  if twice < d then floor else if d < twice then floor + 1 else floor + floor % 2

/-- The exponent of the leading bit of `n / d`, that is the greatest `e` with `2^e ≤ n / d`. -/
def leadingExponent (n d : Nat) : Int :=
  let e : Int := (n.log2 : Int) - (d.log2 : Int)
  if d * Nat.pow 2 e.toNat ≤ n * Nat.pow 2 (-e).toNat then e else e - 1

/-- The number nearest to `n / d`; too large a quotient gives infinity. -/
def ofRatio (negative : Bool) (n d : Nat) : Binary64 :=
  if n = 0 ∨ d = 0 then ofMagnitude negative 0 else
    let q := max (leadingExponent n d - 52) (-1074)
    let m := roundQuotient (n * Nat.pow 2 (-q).toNat) (d * Nat.pow 2 q.toNat)
    ofMagnitude negative (min ((q + 1074).toNat * hiddenBit + m) infinityBits)

example : ofRatio false 1 10 = ⟨0x3fb999999999999a⟩ := by decide +kernel
example : ofRatio false (2 ^ 1024) 1 = infinity false := by decide +kernel
example : (ofRatio true 3 2).parts = (3 * 2 ^ 51, -52) := by decide +kernel

end Binary64

end FluxFront
