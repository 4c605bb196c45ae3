import FluxFront.Proofs.Mirrors
import FluxFront.Proofs.Readings

/-!
# Scanning further down

A scanner that starts some lines and bytes further down reads the same and points further down.

* **Specification**: what a scanner gives is shifted as a whole with the place it starts at
  (`Scanner.Emits.shifted`).
* **Crux**: places are only ever stepped on, and a step over a character is the same step further down
  (`Location.next_shifted`), since the column starts anew with every line.  So each reading of a shifted
  place is the reading with its complaints shifted (`Reading.shifted`).
-/

namespace FluxFront

/-! ## Further down -/

section Shift

variable (lines bytes : Nat)

/-- The place some lines and bytes further down, in the same column. -/
def Location.shifted (a : Location) : Location := ⟨a.line + lines, a.column, a.offset + bytes⟩

/-- The span between the shifted ends. -/
def Span.shifted (span : Span) : Span := ⟨span.start.shifted lines bytes, span.stop.shifted lines bytes⟩

@[simp] theorem Location.next_shifted (a : Location) (c : Char) :
    (a.shifted lines bytes).next c = (a.next c).shifted lines bytes := by
  unfold next
  split <;> simp [shifted, Nat.add_right_comm]

@[simp] theorem Location.after_shifted (a : Location) (text : List Char) :
    (a.shifted lines bytes).after text = (a.after text).shifted lines bytes := by
  induction text generalizing a with
  | nil => rfl
  | cons c text ih => rw [after_cons, after_cons, next_shifted, ih]

theorem respan_append {α : Type} [Spanned α] (m : Span → Span) (as bs : List α) :
    respan m (as ++ bs) = respan m as ++ respan m bs := List.map_append

end Shift

namespace Token

variable (lines bytes : Nat)

/-! ## Gaps -/

/-- The mode of skipping with the comment opened further down. -/
def GapMode.shifted : GapMode → GapMode
  | .blockComment opened => .blockComment (opened.shifted lines bytes)
  | mode => mode

/-- The gap further down. -/
def Gap.shifted (g : Gap) : Gap where
  rest := g.rest
  here := g.here.shifted lines bytes
  afterAsm := g.afterAsm
  errors := respan (Span.shifted lines bytes) g.errors

theorem skipGap_shifted (mode : GapMode) (here : Location) (afterAsm : Bool) (text : List Char) :
    skipGap (mode.shifted lines bytes) (here.shifted lines bytes) afterAsm text =
      (skipGap mode here afterAsm text).shifted lines bytes := by
  fun_induction skipGap mode here afterAsm text with
  | case1 opened here afterAsm => rfl
  | case2 mode here afterAsm hmode =>
    cases mode with
    | blockComment opened => exact absurd rfl (hmode opened)
    | blank | lineComment => rfl
  | case3 here afterAsm c rest ih =>
    rw [GapMode.shifted, skipGap, Location.next_shifted, ← ih]
    · split <;> rfl
    · exact nofun
  | case4 opened here afterAsm rest ih =>
    rw [GapMode.shifted, skipGap, Location.next_shifted, Location.next_shifted, ← ih]
    rfl
  | case5 opened here afterAsm c rest hclose ih =>
    rw [GapMode.shifted, skipGap, Location.next_shifted, ← ih]
    · rfl
    · exact hclose
  | case6 here afterAsm rest ih =>
    rw [GapMode.shifted, skipGap, Location.next_shifted, Location.next_shifted, ← ih]
    · rfl
    · exact nofun
  | case7 here afterAsm rest ih =>
    rw [GapMode.shifted, skipGap, Location.next_shifted, Location.next_shifted, ← ih]
    · rfl
    · exact nofun
  | case8 here afterAsm c rest hline hblock hblank ih =>
    rw [GapMode.shifted, skipGap, if_pos hblank, Location.next_shifted, ← ih]
    · rfl
    · exact hline
    · exact hblock
    · exact nofun
  | case9 here afterAsm c rest hline hblock hblank hstart =>
    rw [GapMode.shifted, skipGap, if_neg hblank, if_pos hstart]
    · rfl
    · exact hline
    · exact hblock
    · exact nofun
  | case10 here afterAsm c rest hline hblock hblank hstart gap error =>
    rename_i ih
    have hrest : skipGap .blank ((here.next c).shifted lines bytes) false rest =
        gap.shifted lines bytes := ih
    rw [GapMode.shifted, skipGap, if_neg hblank, if_neg hstart, Location.next_shifted, hrest]
    · rfl
    · exact hline
    · exact hblock
    · exact nofun

/-! ## Readings -/

/-- The reading further down: only its complaints have places. -/
def Reading.shifted (r : Reading) : Reading :=
  { r with errors := respan (Span.shifted lines bytes) r.errors }

/-- The inside of a quoted text further down. -/
def Quoted.shifted (q : Quoted) : Quoted :=
  { q with errors := respan (Span.shifted lines bytes) q.errors }

theorem escapeErrors_shifted (here : Location) (c : Char) :
    escapeErrors (here.shifted lines bytes) c =
      respan (Span.shifted lines bytes) (escapeErrors here c) := by
  unfold escapeErrors
  split
  · rfl
  · rw [Location.next_shifted]
    rfl

theorem readQuoted_shifted (quote : Char) (here : Location) (text : List Char) :
    readQuoted quote (here.shifted lines bytes) text =
      (readQuoted quote here text).shifted lines bytes := by
  fun_induction readQuoted quote here text with
  | case1 => rfl
  | case2 here text =>
    rw [readQuoted.eq_def]
    simp [Quoted.shifted]
  | case3 here hslash =>
    rw [readQuoted.eq_def]
    simp [Quoted.shifted, hslash]
  | case4 here e behind hslash q =>
    rename_i ih
    rw [readQuoted.eq_def]
    dsimp only
    rw [if_neg hslash, if_pos rfl, Location.next_shifted, Location.next_shifted, ih,
      escapeErrors_shifted]
    show _ = Quoted.mk _ _ _ _ (respan _ (_ ++ _))
    rw [respan_append]
    rfl
  | case5 here c text hquote hslash q =>
    rename_i ih
    rw [readQuoted.eq_def]
    dsimp only
    rw [if_neg hquote, if_neg hslash, Location.next_shifted, ih]
    rfl

theorem readString_shifted (kind : Kind) (decode : List Char → Value) (opening : List Char)
    (here : Location) (text : List Char) :
    readString kind decode opening (here.shifted lines bytes) text =
      (readString kind decode opening here text).shifted lines bytes := by
  unfold readString Reading.shifted
  rw [Location.after_shifted, readQuoted_shifted]
  dsimp only [Quoted.shifted]
  rw [respan_append, Location.after_shifted]
  split <;> rfl

theorem readCharBody_shifted (here : Location) (text : List Char) :
    readCharBody (here.shifted lines bytes) text =
      ((readCharBody here text).1, (readCharBody here text).2.1, (readCharBody here text).2.2.1,
        respan (Span.shifted lines bytes) (readCharBody here text).2.2.2) := by
  unfold readCharBody
  split
  · rfl
  · split
    · split
      · rfl
      · rw [Location.next_shifted, escapeErrors_shifted]
    · split <;> rfl

theorem readChar_shifted (here : Location) (text : List Char) :
    readChar (here.shifted lines bytes) text = (readChar here text).shifted lines bytes := by
  unfold readChar
  rw [Location.next_shifted, readCharBody_shifted]
  generalize readCharBody (here.next '\'') text = body
  obtain ⟨taken, behind, value, errors⟩ := body
  dsimp only
  split
  · rfl
  · rw [Location.after_shifted]
    unfold Reading.shifted
    rw [respan_append]
    rfl

theorem numberReading_shifted (kind : Kind) (here : Location) (lexeme rest : List Char) (value : Value)
    (valid : Bool) : numberReading kind (here.shifted lines bytes) lexeme rest value valid =
      (numberReading kind here lexeme rest value valid).shifted lines bytes := by
  cases valid with
  | true => rfl
  | false =>
    unfold numberReading
    rw [Location.after_shifted]
    rfl

theorem readRadix_shifted (radix : Nat) (mark : Char) (here : Location) (text : List Char) :
    readRadix radix mark (here.shifted lines bytes) text =
      (readRadix radix mark here text).shifted lines bytes := by
  unfold readRadix
  dsimp only
  split <;> exact numberReading_shifted _ _ _ _ _ _ _ _

theorem readDecimal_shifted (here : Location) (text : List Char) :
    readDecimal (here.shifted lines bytes) text = (readDecimal here text).shifted lines bytes := by
  unfold readDecimal
  dsimp only
  split <;> exact numberReading_shifted _ _ _ _ _ _ _ _

theorem readNumber_shifted (here : Location) (text : List Char) :
    readNumber (here.shifted lines bytes) text = (readNumber here text).shifted lines bytes := by
  unfold readNumber
  split
  · split
    · exact readRadix_shifted _ _ _ _ _ _
    · exact readDecimal_shifted _ _ _ _
  · exact readDecimal_shifted _ _ _ _

theorem readRaw_shifted (here : Location) (text : List Char) :
    readRaw (here.shifted lines bytes) text = (readRaw here text).shifted lines bytes := by
  unfold readRaw
  dsimp only
  split
  · rw [Location.after_shifted]
    rfl
  · rfl

theorem readToken_shifted (here : Location) (c : Char) (text : List Char) :
    readToken (here.shifted lines bytes) c text = (readToken here c text).shifted lines bytes := by
  unfold readToken
  split
  · rfl
  · split
    · exact readString_shifted _ _ _ _ _ _ _
    · split
      · exact readChar_shifted _ _ _ _
      · split
        · exact readNumber_shifted _ _ _ _
        · split
          · exact readString_shifted _ _ _ _ _ _ _
          · rfl

theorem reading_shifted (raw : Bool) (here : Location) (c : Char) (text : List Char) :
    reading raw (here.shifted lines bytes) c text = (reading raw here c text).shifted lines bytes := by
  unfold reading
  split
  · exact readRaw_shifted _ _ _ _
  · exact readToken_shifted _ _ _ _ _

/-! ## Scans -/

/-- The scanner of the same text further down. -/
def Scanner.shifted (s : Scanner) : Scanner := { s with here := s.here.shifted lines bytes }

theorem Reading.token_shifted (r : Reading) (here : Location) :
    (r.shifted lines bytes).token (here.shifted lines bytes) =
      respan (Span.shifted lines bytes) (r.token here) := by
  show Token.mk _ _ ⟨_, (here.shifted lines bytes).after r.lexeme⟩ _ = _
  rw [Location.after_shifted]
  rfl

theorem Reading.behind_shifted (r : Reading) (here : Location) :
    (r.shifted lines bytes).behind (here.shifted lines bytes) =
      (r.behind here).shifted lines bytes := by
  show Scanner.mk _ ((here.shifted lines bytes).after r.lexeme) _ = _
  rw [Location.after_shifted]
  rfl

theorem Scanner.gap_shifted (s : Scanner) :
    (s.shifted lines bytes).gap = s.gap.shifted lines bytes :=
  skipGap_shifted lines bytes .blank s.here s.afterAsm s.rest

/-- What a scanner gives is shifted with it. -/
theorem Scanner.Emits.shifted {s : Scanner} {tokens : List Token} {errors : List Diagnostic}
    (h : s.Emits tokens errors) : (s.shifted lines bytes).Emits
      (respan (Span.shifted lines bytes) tokens) (respan (Span.shifted lines bytes) errors) := by
  induction h with
  | @done s here raw errors hgap =>
    have hgap' : (s.shifted lines bytes).gap = ⟨[], here.shifted lines bytes, raw,
        respan (Span.shifted lines bytes) errors⟩ := by
      rw [gap_shifted, hgap]
      rfl
    exact .done hgap'
  | @token s c text here raw errors more tokens hgap _ ih =>
    have hgap' : (s.shifted lines bytes).gap = ⟨c :: text, here.shifted lines bytes, raw,
        respan (Span.shifted lines bytes) errors⟩ := by
      rw [gap_shifted, hgap]
      rfl
    have hagain := Emits.token hgap' (by rw [reading_shifted, Reading.behind_shifted]; exact ih)
    rw [reading_shifted, Reading.token_shifted] at hagain
    rwa [respan_cons, respan_append, respan_append]

end Token

end FluxFront
