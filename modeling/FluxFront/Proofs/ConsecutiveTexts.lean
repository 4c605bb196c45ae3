import FluxFront.Proofs.Interruptions
import FluxFront.Proofs.ShiftedScans

/-!
# One text below another

* **Specification**: below a text that nothing is wrong with and that does not end with `asm`, another
  text is scanned as it is alone, some lines and bytes further down (`scan_lineFeed`).
* **Invariant**: up to the end of the upper text both scanners read the same.  At its end, the line feed
  is a blank of the gap there, or ends a comment, so that the gap of the lower text goes on.
* **Crux**: nothing but the place and the mark of `asm` is handed over, and the mark tells of the last
  token (`endsWithAsm`).
-/

namespace FluxFront.Token

/-! ## The gap at a line feed -/

/-- The end of a line leads on to a gap of blanks, whether in a comment up to there or not. -/
theorem skipGap_lineFeed {mode : GapMode} (hmode : ∀ opened, mode ≠ .blockComment opened)
    (here : Location) (afterAsm : Bool) (text : List Char) :
    skipGap mode here afterAsm ('\n' :: text) = skipGap .blank (here.next '\n') afterAsm text := by
  cases mode with
  | blank => exact skipGap_blank (by decide) here afterAsm text
  | lineComment => rw [skipGap, if_pos rfl]
  | blockComment opened => exact absurd rfl (hmode opened)

/-- What is skipped in front of a line feed and a text, if nothing is wrong with the gap there. -/
def Gap.thenLine (g : Gap) (text : List Char) : Gap :=
  if g.rest = [] then skipGap .blank (g.here.next '\n') g.afterAsm text
  else { g with rest := g.rest ++ '\n' :: text }

theorem skipGap_thenLine (mode : GapMode) (here : Location) (afterAsm : Bool) (text : List Char)
    (clean : (skipGap mode here afterAsm text).errors = []) (below : List Char) :
    skipGap mode here afterAsm (text ++ '\n' :: below) =
      (skipGap mode here afterAsm text).thenLine below := by
  fun_induction skipGap mode here afterAsm text with
  | case1 => exact absurd clean (List.cons_ne_nil _ _)
  | case2 mode here afterAsm hmode => exact skipGap_lineFeed hmode here afterAsm below
  | case3 here afterAsm c rest ih =>
    rw [List.cons_append, skipGap, ih clean]
  | case4 opened here afterAsm rest ih =>
    rw [List.cons_append, List.cons_append, skipGap, ih clean]
  | case5 opened here afterAsm c rest hclose ih =>
    rw [List.cons_append, skipGap, ih clean]
    -- what closes the comment now would have closed it before
    intro rest' hc he
    have hstart : ['/'] <+: rest ++ '\n' :: below := ⟨rest', he.symm⟩
    obtain ⟨more, hmore⟩ := (Interrupted.behind (by decide) rest below).begins
      (forall_mem_of_all (by decide)) hstart
    exact hclose more hc hmore.symm
  | case6 here afterAsm rest ih =>
    rw [List.cons_append, List.cons_append, skipGap, ih clean]
  | case7 here afterAsm rest ih =>
    rw [List.cons_append, List.cons_append, skipGap, ih clean]
  | case8 here afterAsm c rest _ _ hblank ih =>
    rw [List.cons_append, skipGap_blank hblank, ih clean]
  | case9 here afterAsm c rest hline hblock hblank hstart =>
    have hstops := StopsGap.of_not_comment hline hblock hblank hstart
    rw [Gap.thenLine, if_neg (List.cons_ne_nil c rest)]
    exact (hstops.interrupted (.behind (by decide) rest below)).gap here afterAsm
  | case10 => exact absurd clean (List.cons_ne_nil _ _)

/-! ## Scanning on below a text -/

/-- Whether `asm` was read last, behind some tokens. -/
def endsWithAsm (afterAsm : Bool) (tokens : List Token) : Bool :=
  tokens.foldl (fun _ t => t.kind == .kwAsm) afterAsm

theorem endsWithAsm_eq_false {tokens : List Token}
    (h : ∀ t, tokens.getLast? = some t → t.kind ≠ .kwAsm) : endsWithAsm false tokens = false := by
  rcases List.eq_nil_or_concat tokens with rfl | ⟨front, t, rfl⟩
  · rfl
  · rw [List.concat_eq_append] at h ⊢
    rw [endsWithAsm, List.foldl_append]
    exact beq_eq_false_iff_ne.2 (h t List.getLast?_concat)

namespace Scanner

theorem gap_thenLine {s : Scanner} {rest : List Char} {here : Location} {raw : Bool}
    (h : s.gap = ⟨rest, here, raw, []⟩) (below : List Char) :
    (Scanner.mk (s.rest ++ '\n' :: below) s.here s.afterAsm).gap =
      (Gap.mk rest here raw []).thenLine below := by
  have hline := skipGap_thenLine .blank s.here s.afterAsm s.rest
  rw [show skipGap .blank s.here s.afterAsm s.rest = _ from h] at hline
  exact hline rfl below

/-- Whatever the second scanner gives, the first one gives behind some tokens. -/
def LeadsTo (s : Scanner) (before : List Token) (s' : Scanner) : Prop :=
  ∀ (tokens : List Token) (errors : List Diagnostic),
    s'.Emits tokens errors → s.Emits (before ++ tokens) errors

theorem LeadsTo.of_gap {s s' : Scanner} (h : s.gap = s'.gap) : s.LeadsTo [] s' :=
  fun _ _ hs' => hs'.of_gap h

theorem LeadsTo.token {s s' : Scanner} {c : Char} {text : List Char} {here : Location} {raw : Bool}
    {before : List Token} (hgap : s.gap = ⟨c :: text, here, raw, []⟩)
    (hread : (reading raw here c text).errors = [])
    (h : ((reading raw here c text).behind here).LeadsTo before s') :
    s.LeadsTo ((reading raw here c text).token here :: before) s' := by
  intro tokens errors hs'
  have hall := Emits.token hgap (h tokens errors hs')
  rwa [hread] at hall

/-- What a scanner gives up to the end of its text without a complaint, it gives in front of another line,
and then goes on there. -/
theorem Emits.thenLine {s : Scanner} {tokens : List Token} {errors : List Diagnostic}
    (h : s.Emits tokens errors) (clean : errors = []) {front whole : List Char}
    (hs : s.here = placeBehind front) (hwhole : front ++ s.rest = whole) :
    ∃ before, tokens = before ++ [endAt (placeBehind whole)] ∧ ∀ below,
      (Scanner.mk (s.rest ++ '\n' :: below) s.here s.afterAsm).LeadsTo before
        ⟨below, placeBehind (whole ++ ['\n']), endsWithAsm s.afterAsm before⟩ := by
  induction h generalizing front with
  | @done s here raw errors hgap =>
    subst clean
    obtain ⟨gap, hrest, rfl⟩ := gap_split hs hgap
    rw [List.append_nil] at hrest
    subst hwhole
    refine ⟨[], by rw [hrest]; rfl, fun below => .of_gap ?_⟩
    rw [gap_thenLine hgap, hrest, placeBehind_concat, afterAsm_of_gap hgap]
    rfl
  | @token s c text here raw errors more tokens hgap _ ih =>
    obtain ⟨hfirst, rfl⟩ := List.append_eq_nil_iff.1 clean
    obtain ⟨rfl, hread⟩ := List.append_eq_nil_iff.1 hfirst
    obtain ⟨gap, hrest, rfl⟩ := gap_split hs hgap
    obtain rfl : s.afterAsm = raw := (afterAsm_of_gap hgap).symm
    have hsplit := (Placed.reading_split ⟨front, hs⟩ hgap).1
    have hbehind : front ++ gap ++ (reading s.afterAsm (placeBehind (front ++ gap)) c text).lexeme ++
        (reading s.afterAsm (placeBehind (front ++ gap)) c text).rest = whole := by
      rw [← hwhole, hrest, List.append_assoc _ (Reading.lexeme _), ← hsplit, List.append_assoc]
    obtain ⟨before, htokens, hmore⟩ := ih rfl (placeBehind_append (front ++ gap) _).symm hbehind
    refine ⟨(reading s.afterAsm (placeBehind (front ++ gap)) c text).token (placeBehind (front ++ gap)) ::
      before, by rw [htokens]; rfl, fun below => ?_⟩
    -- the token is read again in front of the line feed
    obtain ⟨text', htext', -, hread'⟩ := reading_interrupted hread
      (.behind (b := '\n') (by decide) _ below) (placeBehind (front ++ gap))
    obtain rfl : text ++ '\n' :: below = text' := by
      rw [← List.append_assoc, ← hsplit] at htext'
      exact (List.cons.inj htext').2
    have hgap' : (Scanner.mk (s.rest ++ '\n' :: below) s.here s.afterAsm).gap =
        ⟨c :: (text ++ '\n' :: below), placeBehind (front ++ gap), s.afterAsm, []⟩ :=
      gap_thenLine hgap below
    have hall := LeadsTo.token hgap' (by rw [hread']; exact hread) (by rw [hread']; exact hmore below)
    rw [hread'] at hall
    exact hall

end Scanner

/-! ## Texts -/

/-- The place below a text is the start of every text, as many lines and bytes further down as the text
with its line feed has. -/
theorem placeBehind_lineFeed (text : String) : placeBehind (text.toList ++ ['\n']) =
    Location.start.shifted (1 + text.toList.count '\n') (text.utf8ByteSize + 1) := by
  have hsize : '\n'.utf8Size = 1 := by decide
  rw [placeBehind_concat]
  unfold placeBehind Location.next Location.shifted Location.start
  rw [if_pos rfl, String.ofList_toList, hsize, Location.mk.injEq]
  exact ⟨Nat.add_comm _ _, rfl, (Nat.zero_add _).symm⟩

/-- Below a text that nothing is wrong with and whose last token is not `asm`, a text is scanned as it is
alone: its tokens come behind those of the upper text, and they and the complaints are further down by
the lines and bytes of the upper text and its line feed. -/
theorem scan_lineFeed (upper lower : String) (clean : (scan upper).2 = [])
    (hasm : ∀ t, (scan upper).1.dropLast.getLast? = some t → t.kind ≠ .kwAsm) :
    (scan (upper ++ "\n" ++ lower)).1 = (scan upper).1.dropLast ++
      respan (Span.shifted (1 + upper.toList.count '\n') (upper.utf8ByteSize + 1)) (scan lower).1 ∧
    (scan (upper ++ "\n" ++ lower)).2 =
      respan (Span.shifted (1 + upper.toList.count '\n') (upper.utf8ByteSize + 1)) (scan lower).2 := by
  obtain ⟨before, htokens, hline⟩ := (emits_scan upper).thenLine clean
    (show _ = placeBehind [] from rfl) rfl
  have hbefore : (scan upper).1.dropLast = before := by rw [htokens, List.dropLast_concat]
  rw [hbefore] at hasm ⊢
  have hstart : (Scanner.mk lower.toList (placeBehind (upper.toList ++ ['\n']))
      (endsWithAsm false before)) =
      (Scanner.ofString lower).shifted (1 + upper.toList.count '\n') (upper.utf8ByteSize + 1) := by
    rw [placeBehind_lineFeed, endsWithAsm_eq_false hasm]
    rfl
  have hlower := (emits_scan lower).shifted (1 + upper.toList.count '\n') (upper.utf8ByteSize + 1)
  rw [← hstart] at hlower
  have hall := hline lower.toList _ _ hlower
  have htext : Scanner.ofString (upper ++ "\n" ++ lower) =
      ⟨upper.toList ++ '\n' :: lower.toList, .start, false⟩ := by
    simp [Scanner.ofString]
  have hscan := scan_eq (htext ▸ hall)
  rw [hscan]
  exact ⟨rfl, rfl⟩

/-- Below a comment and an operator, a stray character and a name are found on the third line. -/
theorem scan_lineFeed_comment :
    (scan "é/*\n*/ *//b").2 = [] ∧
    (∀ t, (scan "é/*\n*/ *//b").1.dropLast.getLast? = some t → t.kind ≠ .kwAsm) ∧
    (scan ("é/*\n*/ *//b" ++ "\n" ++ "= $c")).1 = (scan "é/*\n*/ *//b").1.dropLast ++
      respan (Span.shifted 2 13) (scan "= $c").1 ∧
    (scan ("é/*\n*/ *//b" ++ "\n" ++ "= $c")).2 = respan (Span.shifted 2 13) (scan "= $c").2 := by
  have clean : (scan "é/*\n*/ *//b").2 = [] := by decide +kernel
  have hlast : (scan "é/*\n*/ *//b").1.dropLast.getLast?.map Token.kind = some .star := by
    decide +kernel
  have hasm : ∀ t, (scan "é/*\n*/ *//b").1.dropLast.getLast? = some t → t.kind ≠ .kwAsm := by
    intro t ht hk
    rw [ht, Option.map_some, hk] at hlast
    exact absurd hlast (by decide)
  have hlines : 1 + "é/*\n*/ *//b".toList.count '\n' = 2 := by decide +kernel
  have hbytes : "é/*\n*/ *//b".utf8ByteSize + 1 = 13 := by decide +kernel
  have hscan := scan_lineFeed "é/*\n*/ *//b" "= $c" clean hasm
  rw [hlines, hbytes] at hscan
  exact ⟨clean, hasm, hscan⟩

end FluxFront.Token
