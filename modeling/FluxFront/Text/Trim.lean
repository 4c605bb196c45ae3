import FluxFront.Text.Blank

/-!
# Trimming

Cutting unwanted characters from the ends of a text, and cutting a text at a mark.
-/

namespace FluxFront.Text

/-- The text without the characters of a class at either end. -/
def trimBoth (p : Char → Bool) (text : List Char) : List Char :=
  ((text.dropWhile p).reverse.dropWhile p).reverse

/-- The text without white space at either end. -/
def trimBlanks (text : List Char) : List Char := trimBoth isBlank text

/-- The text behind every leading copy of the two characters `a b`. -/
def dropLeadingPairs (a b : Char) : List Char → List Char
  | x :: y :: rest => if x = a ∧ y = b then dropLeadingPairs a b rest else x :: y :: rest
  | short => short

/-- The text behind a given start. -/
def behind? : List Char → List Char → Option (List Char)
  | [], text => some text
  | _ :: _, [] => none
  | a :: start, c :: text => if a = c then behind? start text else none

/-- A text has a start exactly when it is that start and what is left behind it. -/
theorem behind?_eq_some_iff {start text rest : List Char} :
    behind? start text = some rest ↔ text = start ++ rest := by
  fun_induction behind? start text with
  | case1 text => simp [eq_comm]
  | case2 => simp
  | case3 start a text ih => simpa using ih
  | case4 a start c text h => simp [Ne.symm h]

theorem behind?_eq_none_iff {start text : List Char} :
    behind? start text = none ↔ ¬ start <+: text := by
  rw [Option.eq_none_iff_forall_ne_some]
  constructor
  · rintro h ⟨rest, hrest⟩
    exact h rest (behind?_eq_some_iff.2 hrest.symm)
  · exact fun h rest hrest => h ⟨rest, (behind?_eq_some_iff.1 hrest).symm⟩

/-- The text in front of the last copy of a mark, and the text behind it. -/
def splitLast? (mark : List Char) : List Char → Option (List Char × List Char)
  | [] => none
  | c :: text =>
    match splitLast? mark text with
    | some (front, back) => some (c :: front, back)
    | none => (behind? mark (c :: text)).map ([], ·)

/-- Cutting at a mark loses nothing but the mark. -/
theorem eq_append_of_splitLast? {mark text front back : List Char}
    (h : splitLast? mark text = some (front, back)) : text = front ++ mark ++ back := by
  fun_induction splitLast? mark text generalizing front with
  | case1 => simp at h
  | case2 c text f b hs ih =>
    obtain ⟨rfl, rfl⟩ : c :: f = front ∧ b = back := by simpa using h
    simp [ih hs]
  | case3 c text hs ih =>
    obtain ⟨rest, hr, hp⟩ := Option.map_eq_some_iff.1 h
    obtain ⟨rfl, rfl⟩ : [] = front ∧ rest = back := by simpa using hp
    simpa using behind?_eq_some_iff.1 hr

example : trimBoth (· == '"') "\"a\"b\"\"".toList = "a\"b".toList := by decide
example : dropLeadingPairs '0' 'b' "0b0b01".toList = "01".toList := by decide

end FluxFront.Text
