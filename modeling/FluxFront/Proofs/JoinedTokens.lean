import FluxFront.Proofs.Interruptions

/-!
# What stands between tokens does not matter

* **Specification**: if nothing is wrong with a text, its tokens are read again from their lexemes with
  one blank between them (`scan_joined`).  Only the places are others.
* **Invariant**: the scanner of the text and the one of its lexemes stand in front of the same token, and
  both know whether the last one was `asm`.
* **Crux**: a gap without stray characters leaves this mark alone (`skipGap_quiet`), and ends in front of
  a token and no comment (`skipGap_stops`).  Both are true of the gap that the blank makes, too, as the
  token does not look beyond it.
-/

namespace FluxFront.Token

/-! ## Lexemes with blanks between them -/

/-- The lexemes of tokens with one blank between them. -/
def joined (tokens : List Token) : String := " ".intercalate (tokens.map Token.lexeme)

theorem joined_cons {tokens : List Token} (h : tokens ≠ []) (t : Token) :
    (joined (t :: tokens)).toList = t.lexeme.toList ++ ' ' :: (joined tokens).toList := by
  obtain ⟨u, more, rfl⟩ := List.exists_cons_of_ne_nil h
  simp [joined, String.intercalate_cons_cons]

theorem Reading.word_token (r : Reading) (here : Location) :
    (r.token here).word = ⟨r.kind, r.lexeme, r.literal⟩ := by
  simp [token, Token.word]

namespace Scanner

/-- A blank in front of the text makes no difference but for the places. -/
theorem Emits.blank {text : List Char} {here : Location} {afterAsm : Bool} {tokens : List Token}
    {errors : List Diagnostic} (h : (Scanner.mk text (here.next ' ') afterAsm).Emits tokens errors) :
    (Scanner.mk (' ' :: text) here afterAsm).Emits tokens errors :=
  h.of_gap (skipGap_blank (by decide) here afterAsm text)

/-- What a scanner gives without a complaint, a scanner of the lexemes gives at every place. -/
theorem Emits.exists_joined {s : Scanner} {tokens : List Token} {errors : List Diagnostic}
    (h : s.Emits tokens errors) (hs : s.Placed) (clean : errors = []) (there : Location) :
    ∃ tokens', (Scanner.mk (joined tokens).toList there s.afterAsm).Emits tokens' [] ∧
      tokens'.map word = tokens.map word := by
  induction h generalizing there with
  | done => exact ⟨_, .done rfl, rfl⟩
  | @token s c text here raw errors more tokens hgap hmore ih =>
    obtain ⟨hfirst, rfl⟩ := List.append_eq_nil_iff.1 clean
    obtain ⟨rfl, hread⟩ := List.append_eq_nil_iff.1 hfirst
    obtain ⟨front, hfront⟩ := hs
    obtain ⟨gap, -, rfl⟩ := gap_split hfront hgap
    obtain rfl : s.afterAsm = raw := (afterAsm_of_gap hgap).symm
    have hstops : StopsGap c text := skipGap_stops .blank s.here s.afterAsm s.rest
      (show s.gap.rest = _ by rw [hgap])
    -- the token is read again in front of the blank
    obtain ⟨text', htext', hi, hread'⟩ := reading_interrupted hread
      (.here (b := ' ') (by decide) _ (joined tokens).toList) there
    have hplaced := (Placed.reading_split ⟨front, hfront⟩ hgap).2
    generalize reading s.afterAsm (placeBehind (front ++ gap)) c text = r at *
    obtain ⟨tokens', hemits, hwords⟩ := ih hplaced rfl ((there.after r.lexeme).next ' ')
    have hne : tokens ≠ [] := by
      obtain ⟨before, stop, rfl⟩ := hmore.exists_end
      simp
    have hjoined : (joined (r.token (placeBehind (front ++ gap)) :: tokens)).toList = c :: text' := by
      rw [joined_cons hne, ← htext']
      simp [Reading.token]
    have hagain := Emits.token ((hstops.interrupted hi).gap there s.afterAsm)
      (by rw [hread']; exact hemits.blank)
    rw [hread', hread] at hagain
    refine ⟨_, hjoined ▸ hagain, ?_⟩
    rw [List.map_cons, List.map_cons, hwords, Reading.word_token, Reading.word_token]

end Scanner

/-- If nothing is wrong with a text, nothing is wrong with the lexemes of its tokens with single blanks
between them, and their tokens have the same kinds, lexemes and values. -/
theorem scan_joined (source : String) (clean : (scan source).2 = []) :
    (scan (" ".intercalate ((scan source).1.map Token.lexeme))).2 = [] ∧
      (scan (" ".intercalate ((scan source).1.map Token.lexeme))).1.map word =
        (scan source).1.map word := by
  obtain ⟨tokens, hemits, hwords⟩ := (emits_scan source).exists_joined ⟨[], rfl⟩ clean .start
  have hscan : scan (joined (scan source).1) = _ := scan_eq hemits
  rw [show " ".intercalate ((scan source).1.map Token.lexeme) = joined (scan source).1 from rfl, hscan]
  exact ⟨rfl, hwords⟩

/-- The brace behind `asm` opens a block of raw text behind the blank, too, and no comment is left. -/
theorem scan_joined_asm :
    (scan "asm\x7ba\x7dx**=1e3//y").2 = [] ∧
    (scan (" ".intercalate ((scan "asm\x7ba\x7dx**=1e3//y").1.map Token.lexeme))).2 = [] ∧
      (scan (" ".intercalate ((scan "asm\x7ba\x7dx**=1e3//y").1.map Token.lexeme))).1.map word =
        (scan "asm\x7ba\x7dx**=1e3//y").1.map word := by
  have clean : (scan "asm\x7ba\x7dx**=1e3//y").2 = [] := by decide +kernel
  exact ⟨clean, scan_joined "asm\x7ba\x7dx**=1e3//y" clean⟩

end FluxFront.Token
