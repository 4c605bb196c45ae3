/-!
# Slots

The places `{}` at which an interpolated text is cut.  `n` slots give `n + 1` parts.
-/

namespace FluxFront.Text

/-- Puts a character in front of the first part. -/
def consPart (c : Char) : List (List Char) → List (List Char)
  | [] => [[c]]
  | part :: parts => (c :: part) :: parts

/-- The parts of a text between its slots, from left to right. -/
def splitSlots : List Char → List (List Char)
  | '{' :: '}' :: rest => [] :: splitSlots rest
  | c :: rest => consPart c (splitSlots rest)
  | [] => [[]]

theorem splitSlots_ne_nil (text : List Char) : splitSlots text ≠ [] := by
  fun_induction splitSlots text with
  | case1 => simp
  | case2 c rest _ ih => cases h : splitSlots rest <;> simp [consPart]
  | case3 => simp

end FluxFront.Text
