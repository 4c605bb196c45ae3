import FluxFront.Text.Ranges

/-!
# Blanks

The characters with the Unicode property White_Space.  They separate tokens and are trimmed from
the ends of raw text.
-/

namespace FluxFront.Text

/-- The ranges of the property White_Space. -/
def blankRanges : List Range :=
  [(0x9, 0xd), (0x20, 0x20), (0x85, 0x85), (0xa0, 0xa0), (0x1680, 0x1680), (0x2000, 0x200a),
  (0x2028, 0x2029), (0x202f, 0x202f), (0x205f, 0x205f), (0x3000, 0x3000)]

/-- Whether a character is white space. -/
def isBlank (c : Char) : Bool := inRanges blankRanges c

example : isBlank '\x0c' = true ∧ isBlank (Char.ofNat 0x2028) = true := by decide
example : isBlank (Char.ofNat 0x200b) = false ∧ isBlank (Char.ofNat 0x180e) = false := by decide

end FluxFront.Text
