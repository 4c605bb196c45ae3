import FluxFront.Diagnostic.Basic
import FluxFront.Proofs.Places

/-!
# The places of a text

Every boundary between two characters of a text has a place: the number of its line, the number of its
column in that line, and the number of bytes in front of it.  `placeBehind` counts them from the
characters in front of the boundary, and does not look at how a scanner gets there.

* **Specification**: `Location.IsIn` says that a location is the place of some boundary, and
  `Span.IsIn` that a span lies between two of them.
* **Crux**: walking over characters is counting them (`placeBehind_append`), and the places of one text
  are in order (`Location.IsIn.total`), so the later of two places is a place again.
-/

namespace FluxFront

/-! ## Counting -/

/-- The place behind the first characters of a text: one more than the lines that ended, one more than
the characters since then, and the bytes of all of them. -/
def placeBehind (front : List Char) : Location where
  line := 1 + front.count '\n'
  column := 1 + (front.reverse.takeWhile (· != '\n')).length
  offset := (String.ofList front).utf8ByteSize

/-- One more character. -/
theorem placeBehind_concat (front : List Char) (c : Char) :
    placeBehind (front ++ [c]) = (placeBehind front).next c := by
  have hoffset : (String.ofList (front ++ [c])).utf8ByteSize
      = (String.ofList front).utf8ByteSize + c.utf8Size := by
    rw [String.ofList_append, String.utf8ByteSize_append, ← String.singleton_eq_ofList,
      String.utf8ByteSize_singleton]
  unfold placeBehind Location.next
  rw [hoffset, List.count_append, List.reverse_append, List.reverse_singleton,
    List.singleton_append, List.takeWhile_cons]
  by_cases h : c = '\n'
  · simp [h, Nat.add_assoc]
  · simp [h, Nat.add_assoc, Nat.add_comm 1]

/-- Counting further characters is walking over them. -/
theorem placeBehind_append (front text : List Char) :
    placeBehind (front ++ text) = (placeBehind front).after text := by
  induction text generalizing front with
  | nil => rw [List.append_nil, Location.after_nil]
  | cons c text ih =>
    rw [List.append_cons, ih, placeBehind_concat, Location.after_cons]

theorem placeBehind_le (front text : List Char) :
    placeBehind front ≤ placeBehind (front ++ text) := by
  rw [placeBehind_append]
  exact Location.le_after _ _

example : placeBehind "a\né".toList = ⟨2, 2, 4⟩ := by decide +kernel

/-! ## Places and stretches of a text -/

/-- The location is the place of a boundary of the text. -/
def Location.IsIn (text : List Char) (a : Location) : Prop :=
  ∃ front rest, text = front ++ rest ∧ a = placeBehind front

/-- Both ends of the span are places of the text, and it does not end before it starts. -/
structure Span.IsIn (text : List Char) (span : Span) : Prop where
  start : span.start.IsIn text
  stop : span.stop.IsIn text
  le : span.start ≤ span.stop

/-- The diagnostic points at a stretch of the text. -/
def Diagnostic.IsIn (text : List Char) (d : Diagnostic) : Prop :=
  ∃ span, d.span = some span ∧ span.IsIn text

namespace Location.IsIn

variable {text : List Char} {a b : Location}

/-- Of two places of a text one comes first. -/
theorem total (ha : a.IsIn text) (hb : b.IsIn text) : a ≤ b ∨ b ≤ a := by
  obtain ⟨front, rest, rfl, rfl⟩ := ha
  obtain ⟨front', rest', htext, rfl⟩ := hb
  -- of two beginnings of a text one begins the other
  rcases List.prefix_or_prefix_of_prefix ⟨rest, rfl⟩ ⟨rest', htext.symm⟩ with ⟨more, rfl⟩ | ⟨more, rfl⟩
  · exact .inl (placeBehind_le _ _)
  · exact .inr (placeBehind_le _ _)

theorem max (ha : a.IsIn text) (hb : b.IsIn text) : (a.max b).IsIn text := by
  rcases ha.total hb with h | h
  · rwa [Location.max_eq_right h]
  · rwa [Location.max_eq_left h]

theorem le_max_right (ha : a.IsIn text) (hb : b.IsIn text) : b ≤ a.max b := by
  rcases ha.total hb with h | h
  · rw [Location.max_eq_right h]
    exact le_refl _
  · rwa [Location.max_eq_left h]

end Location.IsIn

/-- The characters between two boundaries are the bytes between their offsets. -/
theorem bytes_between {source : String} {front body rest : List Char}
    (h : source.toList = front ++ (body ++ rest)) :
    source.toUTF8.extract (placeBehind front).offset (placeBehind (front ++ body)).offset
      = (String.ofList body).toUTF8 := by
  have hsource : source = String.ofList front ++ (String.ofList body ++ String.ofList rest) := by
    rw [← String.ofList_append, ← String.ofList_append, ← h, String.ofList_toList]
  have hstop : (placeBehind (front ++ body)).offset
      = (String.ofList front).utf8ByteSize + (String.ofList body).utf8ByteSize := by
    show (String.ofList (front ++ body)).utf8ByteSize = _
    rw [String.ofList_append, String.utf8ByteSize_append]
  have hstart : (placeBehind front).offset = (String.ofList front).utf8ByteSize := rfl
  simp only [String.toUTF8_eq_toByteArray]
  rw [hsource, hstart, hstop, String.toByteArray_append, String.toByteArray_append,
    ByteArray.extract_append, String.size_toByteArray, Nat.sub_self, Nat.add_sub_cancel_left,
    ByteArray.extract_append_eq_left String.size_toByteArray.symm]
  -- of the characters in front nothing is left
  have hempty : (String.ofList front).toByteArray.extract (String.ofList front).utf8ByteSize
      ((String.ofList front).utf8ByteSize + (String.ofList body).utf8ByteSize) = .empty := by
    rw [ByteArray.extract_eq_empty_iff, String.size_toByteArray]
    omega
  rw [hempty, ByteArray.empty_append]

theorem isIn_placeBehind (front rest : List Char) : (placeBehind front).IsIn (front ++ rest) :=
  ⟨front, rest, rfl, rfl⟩

/-- The empty span at a place. -/
theorem Span.IsIn.single {text : List Char} {a : Location} (h : a.IsIn text) :
    (Span.single a).IsIn text := ⟨h, h, Location.le_refl a⟩

/-- The span of the characters between two boundaries. -/
theorem Span.isIn_between (front body rest : List Char) :
    Span.IsIn (front ++ (body ++ rest)) ⟨placeBehind front, placeBehind (front ++ body)⟩ where
  start := isIn_placeBehind _ _
  stop := by
    rw [← List.append_assoc]
    exact isIn_placeBehind _ _
  le := placeBehind_le _ _

end FluxFront
