import FluxFront.Diagnostic.Snippet
import FluxFront.Proofs.Boundaries
import Mathlib.Data.List.TakeWhile

/-!
# Where the carets stand

The long form of a diagnostic quotes a line of the source behind a gutter, and puts carets into the row
below it.

* **Program**: the line stands behind its number and a bar.  The blanks in front of the bar below make up
  for the number and for two characters more.
* **Specification**: `CaretsBelow` looks at the rows of an output only, and compares the index of the
  first caret with that of a character of the quoted line.
* **Finding**: the carets stand two characters to the right of where they point, at every place of every
  text (`format_carets_shifted`).  The line is the right one, and so is the number of carets.
-/

namespace FluxFront

/-! ## Lines of a source -/

namespace Text

theorem lineFeed_not_mem_linesFrom {line : List Char} (text : List Char) (hline : '\n' ∉ line) :
    ∀ l ∈ linesFrom line text, '\n' ∉ l := by
  fun_induction linesFrom line text with
  | case1 line => simp
  | case2 line => simpa using hline
  | case3 line rest ih =>
    refine List.forall_mem_cons.2 ⟨?_, ih List.not_mem_nil⟩
    unfold closeLine
    split <;> simpa using hline
  | case4 line c rest hc ih => exact ih (by simpa [Ne.symm hc] using hline)

/-- A line is its row, or its row is the line and a carriage return in front of a line feed. -/
def IsLineOf (row behind line : List Char) : Prop :=
  row = line ∨ row = line ++ ['\r'] ∧ '\n' ∈ behind

/-- The line that is being read ends at the next line feed. -/
theorem head_linesFrom {line : List Char} (hne : line ≠ []) (text : List Char) :
    ∃ l, (linesFrom line text)[0]? = some l ∧
      IsLineOf (line.reverse ++ text.takeWhile (· != '\n')) text l := by
  induction text generalizing line with
  | nil => exact ⟨line.reverse, by simp [linesFrom, hne], .inl (by simp)⟩
  | cons c text ih =>
    unfold linesFrom
    by_cases hc : c = '\n'
    · rw [if_pos hc]
      refine ⟨closeLine line, rfl, ?_⟩
      unfold closeLine
      split
      · exact .inr ⟨by simp [hc], by simp [hc]⟩
      · exact .inl (by simp [hc])
    · obtain ⟨l, hl, hrow⟩ := ih (List.cons_ne_nil c line)
      refine ⟨l, by rw [if_neg hc, hl], ?_⟩
      rw [List.takeWhile_cons_of_pos (by simpa using hc)]
      rcases hrow with hrow | ⟨hrow, hmem⟩
      · exact .inl (by simpa using hrow)
      · exact .inr ⟨by simpa using hrow, List.mem_cons_of_mem _ hmem⟩

theorem takeWhile_append_cons {p : Char → Bool} {x : Char} (hx : p x = false) (a b : List Char) :
    (a ++ x :: b).takeWhile p = a.takeWhile p := by
  induction a with
  | nil => simp [hx]
  | cons y a ih => simp [List.takeWhile_cons, ih]

/-- A character stands in the line with the number of its line, in the row between the line feeds
around it. -/
theorem getElem_linesFrom {c : Char} (hc : c ≠ '\n') (front rest line : List Char)
    (hline : '\n' ∉ line) :
    ∃ l, (linesFrom line (front ++ c :: rest))[front.count '\n']? = some l ∧
      IsLineOf (((front.reverse ++ line).takeWhile (· != '\n')).reverse ++ c ::
        rest.takeWhile (· != '\n')) rest l := by
  induction front generalizing line with
  | nil =>
    obtain ⟨l, hl, hrow⟩ := head_linesFrom (List.cons_ne_nil c line) rest
    refine ⟨l, by simpa [linesFrom, hc] using hl, ?_⟩
    have hall : line.takeWhile (· != '\n') = line :=
      List.takeWhile_eq_self_iff.2 fun x hx => bne_iff_ne.2 (ne_of_mem_of_not_mem hx hline)
    simpa [hall] using hrow
  | cons x front ih =>
    by_cases hx : x = '\n'
    · obtain ⟨l, hl, hrow⟩ := ih [] List.not_mem_nil
      subst hx
      refine ⟨l, by simpa [linesFrom] using hl, ?_⟩
      rw [List.reverse_cons, List.append_assoc, List.singleton_append,
        takeWhile_append_cons (by decide)]
      rwa [List.append_nil] at hrow
    · obtain ⟨l, hl, hrow⟩ := ih (x :: line) (by simpa [Ne.symm hx] using hline)
      exact ⟨l, by simpa [linesFrom, hx] using hl, by simpa using hrow⟩

/-- Only the carriage return of a line's ending is missing in the line. -/
theorem IsLineOf.getElem {before rest l : List Char} {c : Char}
    (h : IsLineOf (before ++ c :: rest.takeWhile (· != '\n')) rest l) :
    l[before.length]? = some c ∨ c = '\r' ∧ rest.head? = some '\n' := by
  have hrow : (before ++ c :: rest.takeWhile (· != '\n'))[before.length]? = some c := by simp
  rcases h with rfl | ⟨hcut, hfeed⟩
  · exact .inl hrow
  · rw [hcut] at hrow
    rcases Nat.lt_or_ge before.length l.length with hlt | hge
    · exact .inl (by rwa [List.getElem?_append_left hlt] at hrow)
    -- the character is the last one of its row, and the row does not end the text
    · have hlength := congrArg List.length hcut
      simp only [List.length_append, List.length_cons, List.length_nil] at hlength
      obtain ⟨hlast, hlen⟩ : rest.takeWhile (· != '\n') = [] ∧ before.length = l.length :=
        ⟨List.length_eq_zero_iff.1 (by omega), by omega⟩
      rw [hlen] at hrow
      obtain rfl : '\r' = c := by simpa using hrow
      refine .inr ⟨rfl, ?_⟩
      cases rest with
      | nil => exact absurd hfeed List.not_mem_nil
      | cons d rest => simpa [List.takeWhile_cons] using hlast

end Text

/-! ## Rows of an output -/

/-- The rows of a text: line feeds stand between them. -/
def Text.rows (text : String) : List (List Char) := text.toList.splitOn '\n'

namespace Diagnostic

/-- A row of the output ends with the line, and in the row below it stand carets, as many as `width`.
The first of them stands `shift` characters to the right of the character of the line in the column. -/
def CaretsBelow (output line : String) (column width shift : Nat) : Prop :=
  ∃ (i : Nat) (gutter carets : List Char),
    (Text.rows output)[i]? = some (gutter ++ line.toList) ∧ (Text.rows output)[i + 1]? = some carets ∧
      carets.idxOf '^' = gutter.length + (column - 1) + shift ∧ carets.count '^' = width

/-- Rows with line feeds around them are rows of the text. -/
theorem getElem_rows {upper lower below : List Char} (above : List Char) (hupper : '\n' ∉ upper)
    (hlower : '\n' ∉ lower) (hbelow : ∀ c ∈ below.head?, c = '\n') :
    ∃ i, ((above ++ '\n' :: (upper ++ '\n' :: (lower ++ below))).splitOn '\n')[i]? = some upper ∧
      ((above ++ '\n' :: (upper ++ '\n' :: (lower ++ below))).splitOn '\n')[i + 1]? = some lower := by
  obtain ⟨more, hlast⟩ : ∃ more, (lower ++ below).splitOn '\n' = lower :: more := by
    cases below with
    | nil => exact ⟨[], by rw [List.append_nil, List.splitOn_eq_singleton hlower]⟩
    | cons c below =>
      obtain rfl : c = '\n' := hbelow c rfl
      exact ⟨_, List.splitOn_append_cons_self_of_not_mem hlower below⟩
  rw [List.splitOn_append_cons_self, List.splitOn_append_cons_self_of_not_mem hupper, hlast]
  refine ⟨(above.splitOn '\n').length, ?_, ?_⟩
  · rw [List.getElem?_append_right (Nat.le_refl _), Nat.sub_self, List.getElem?_cons_zero]
  · rw [List.getElem?_append_right (Nat.le_add_right _ _), Nat.add_sub_cancel_left]
    rfl

/-! ## The output -/

theorem paint_plain (style : Style) (text : String) : style.paint false text = text := rfl

/-- What stands in front of a quoted line: its number and a bar. -/
def gutter (number : Nat) : List Char := (toString number).toList ++ [' ', '|', ' ']

/-- The row below a quoted line. -/
def caretRow (span : Span) : List Char :=
  List.replicate ((toString span.start.line).length + 2) ' ' ++ [' ', '|', ' ']
    ++ List.replicate (span.start.column - 1) ' ' ++ List.replicate (caretCount span) '^'

theorem snippet_plain {source line : String} {span : Span} (hpos : span.start.line ≠ 0)
    (hline : (Text.lines source)[span.start.line - 1]? = some line) :
    (snippet? false source span).map String.toList =
      some (gutter span.start.line ++ line.toList ++ '\n' :: caretRow span) := by
  unfold snippet?
  rw [if_neg hpos, hline]
  simp [paint_plain, gutter, caretRow, copies]

theorem lineFeed_not_mem_gutter (number : Nat) : '\n' ∉ gutter number := by
  intro h
  rcases List.mem_append.1 h with h | h
  · rw [show (toString number).toList = Nat.toDigits 10 number from Nat.toList_repr] at h
    exact absurd (Nat.isDigit_of_mem_toDigits (by decide) (by decide) h) (by decide)
  · exact absurd h (by decide)

theorem lineFeed_not_mem_caretRow (span : Span) : '\n' ∉ caretRow span := by
  simp [caretRow]

/-- The first caret of its row stands two characters further to the right than the column does behind
the gutter. -/
theorem idxOf_caretRow (span : Span) :
    (caretRow span).idxOf '^' = (gutter span.start.line).length + (span.start.column - 1) + 2 := by
  obtain ⟨n, hn⟩ : ∃ n, caretCount span = n + 1 := by
    unfold caretCount
    split
    · exact ⟨max (span.stop.column - span.start.column) 1 - 1, by omega⟩
    · exact ⟨0, rfl⟩
  have hindex : (List.replicate (n + 1) '^').idxOf '^' = 0 := List.idxOf_cons_self
  unfold caretRow
  rw [hn, List.idxOf_append_of_notMem (by simp), hindex]
  simp only [gutter, List.length_append, List.length_replicate, String.length_toList,
    List.length_cons, List.length_nil]
  omega

theorem count_caretRow (span : Span) : (caretRow span).count '^' = caretCount span := by
  simp [caretRow, List.count_replicate]

/-- The excerpt stands in rows of its own. -/
theorem exists_format {d : Diagnostic} {source : String} {span : Span} {excerpt : List Char}
    (hspan : d.span = some span)
    (hexcerpt : (snippet? false source span).map String.toList = some excerpt)
    (filename : Option String) :
    ∃ above below, (d.format source filename false).toList = above ++ '\n' :: (excerpt ++ below) ∧
      ∀ c ∈ below.head?, c = '\n' := by
  obtain ⟨snippet, hsnippet, rfl⟩ := Option.map_eq_some_iff.1 hexcerpt
  refine ⟨(placeText filename span ++ ": " ++ ("error[" ++ d.code ++ "]") ++ ": " ++ d.message).toList,
    (paintedAdvice .blueBold false "note" d.note
      ++ paintedAdvice .greenBold false "help" d.help).toList, ?_, ?_⟩
  · unfold format
    rw [hspan]
    simp [hsnippet, paint_plain]
  · unfold paintedAdvice
    cases d.note <;> cases d.help <;> simp

/-! ## Carets and characters -/

/-- Characters of one line are as many as the columns between them. -/
theorem column_placeBehind_append {front body : List Char}
    (h : (placeBehind front).line = (placeBehind (front ++ body)).line) :
    (placeBehind (front ++ body)).column - (placeBehind front).column = body.length := by
  have hbody : '\n' ∉ body := List.count_eq_zero.1 (by simpa [placeBehind] using h)
  have hall : ∀ x ∈ body.reverse, (x != '\n') = true := fun x hx =>
    bne_iff_ne.2 (ne_of_mem_of_not_mem (List.mem_reverse.1 hx) hbody)
  simp only [placeBehind, List.reverse_append, List.takeWhile_append_of_pos hall, List.length_append,
    List.length_reverse]
  omega

/-- The long form quotes the line that an error points into, and in the row below it stand as many
carets as the error has characters, but at least one.  The first of them stands two characters to the
right of the one that the error starts at. -/
theorem format_carets_shifted {source : String} {front rest : List Char} {c : Char}
    (htext : source.toList = front ++ c :: rest) (hc : c ≠ '\n') {d : Diagnostic} {span : Span}
    (hspan : d.span = some span) (hstart : span.start = placeBehind front)
    (hone : span.start.line = span.stop.line) (filename : Option String) :
    ∃ line, (Text.lines source)[span.start.line - 1]? = some line ∧
      (line.toList[span.start.column - 1]? = some c ∨ c = '\r' ∧ rest.head? = some '\n') ∧
      CaretsBelow (d.format source filename false) line span.start.column
        (max (span.stop.column - span.start.column) 1) 2 ∧
      ∀ body, span.stop = placeBehind (front ++ body) →
        span.stop.column - span.start.column = body.length := by
  have hnumber : span.start.line - 1 = front.count '\n' := by simp [hstart, placeBehind]
  have hcolumn : span.start.column - 1 = (front.reverse.takeWhile (· != '\n')).length := by
    simp [hstart, placeBehind]
  have hpos : span.start.line ≠ 0 := by
    rw [hstart]
    exact Nat.ne_of_gt (Nat.add_pos_left Nat.one_pos _)
  obtain ⟨line, hline, hrow⟩ := Text.getElem_linesFrom hc front rest [] List.not_mem_nil
  rw [← htext, ← hnumber] at hline
  rw [List.append_nil] at hrow
  have hlines : (Text.lines source)[span.start.line - 1]? = some (String.ofList line) := by
    rw [Text.lines, List.getElem?_map, hline]
    rfl
  refine ⟨String.ofList line, hlines, ?_, ?_, ?_⟩
  · have hchar := hrow.getElem
    rwa [List.length_reverse, ← hcolumn, ← String.toList_ofList (l := line)] at hchar
  · have hfeed : '\n' ∉ line :=
      Text.lineFeed_not_mem_linesFrom source.toList List.not_mem_nil line (List.mem_of_getElem? hline)
    obtain ⟨above, below, hformat, hbelow⟩ := exists_format hspan (snippet_plain hpos hlines) filename
    have hupper : '\n' ∉ gutter span.start.line ++ line := by
      simp [hfeed, lineFeed_not_mem_gutter]
    obtain ⟨i, hi, hi'⟩ := getElem_rows above hupper (lineFeed_not_mem_caretRow span) hbelow
    have hrows : Text.rows (d.format source filename false) = (above ++ '\n' ::
        (gutter span.start.line ++ line ++ '\n' :: (caretRow span ++ below))).splitOn '\n' := by
      rw [Text.rows, hformat]
      simp
    refine ⟨i, gutter span.start.line, caretRow span, ?_, ?_, idxOf_caretRow span, ?_⟩
    · rw [hrows, hi, String.toList_ofList]
    · rw [hrows, hi']
    · rw [count_caretRow, caretCount, if_pos hone]
  · intro body hstop
    rw [hstart, hstop] at hone ⊢
    exact column_placeBehind_append hone

/-- In the tenth line of a text, where the number has two digits, and with a message of two rows. -/
theorem format_carets_shifted_tenth :
    let source := "\n\n\n\n\n\n\n\n\né $$x\r\n"
    let front := "\n\n\n\n\n\n\n\n\né ".toList
    let span : Span := ⟨placeBehind front, placeBehind (front ++ ['$', '$'])⟩
    let d : Diagnostic :=
      { kind := .invalidCharacter, message := "odd:\n^", span := some span, help := some "drop it" }
    source.toList = front ++ '$' :: ['$', 'x', '\r', '\n'] ∧
      (placeBehind front).line = (placeBehind (front ++ ['$', '$'])).line ∧
      ∃ line, (Text.lines source)[9]? = some line ∧ line.toList[2]? = some '$' ∧
        CaretsBelow (d.format source (some "a.fx") false) line 3 2 2 := by
  intro source front span d
  have htext : source.toList = front ++ '$' :: ['$', 'x', '\r', '\n'] := by decide +kernel
  have hone : (placeBehind front).line = (placeBehind (front ++ ['$', '$'])).line := by decide +kernel
  obtain ⟨line, hline, hchar, hcarets, hwidth⟩ :=
    format_carets_shifted htext (by decide) (d := d) rfl rfl hone (some "a.fx")
  rw [hwidth ['$', '$'] rfl] at hcarets
  have hline' : (Text.lines source)[9]? = some line := hline
  have hchar' : line.toList[2]? = some '$' := hchar.resolve_right (by decide)
  exact ⟨htext, hone, line, hline', hchar', hcarets⟩

/-- The carets do not stand below the character that they are meant for. -/
theorem format_carets_misplaced :
    let d : Diagnostic := .located .expectedExpression "Expected expression, found ';'"
      ⟨⟨1, 9, 8⟩, ⟨1, 10, 9⟩⟩
    "int x = ;\n".toList = "int x = ".toList ++ ';' :: ['\n'] ∧
      (⟨1, 9, 8⟩ : Location) = placeBehind "int x = ".toList ∧
      (Text.lines "int x = ;\n")[0]? = some "int x = ;" ∧
      ¬ CaretsBelow (d.format "int x = ;\n" none false) "int x = ;" 9 1 0 := by
  intro d
  have hrows : Text.rows (d.format "int x = ;\n" none false) =
      ["1:9: error[E0103]: Expected expression, found ';'".toList, "1 | int x = ;".toList,
        "    |         ^".toList] := by
    decide +kernel
  refine ⟨by decide, by decide +kernel, by decide +kernel, ?_⟩
  rintro ⟨i, gutter, carets, hupper, hlower, hindex, -⟩
  rw [hrows] at hupper hlower
  match i with
  | 0 =>
    have hend := congrArg List.getLast? (Option.some.inj hupper)
    rw [List.getLast?_append_of_ne_nil _ (by decide)] at hend
    exact absurd hend (by decide)
  | 1 =>
    have hlength := congrArg List.length (Option.some.inj hupper)
    rw [List.length_append] at hlength
    obtain rfl : "    |         ^".toList = carets := Option.some.inj hlower
    have hcaret : "    |         ^".toList.idxOf '^' = 14 := by decide
    have hquoted : "1 | int x = ;".toList.length = 13 := by decide
    have hline : "int x = ;".toList.length = 9 := by decide
    omega
  | i + 2 => exact absurd hlower nofun

end Diagnostic

end FluxFront
