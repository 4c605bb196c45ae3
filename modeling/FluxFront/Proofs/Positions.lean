import FluxFront.Proofs.Lossless
import FluxFront.Proofs.MirrorProductions

/-!
# Every reported position is real

* **Specification**: all spans of the tree of a text and of the diagnostics about it lie between two
  boundaries of that text, and the diagnostics stand in the order of their places
  (`parse_positions`).
* **Crux**: the stretches of one text are closed under everything the grammar does with places
  (`Grounds.within`): the later of two places is one of them, and a `>>` is split at a boundary.  So a
  run on the tokens of the text, seen as a mirror of itself, stays on these grounds.
-/

namespace FluxFront

/-! ## The stretches of a text -/

/-- The spans between two boundaries of a text. -/
def Grounds.within (text : List Char) : Grounds where
  Allows := Span.IsIn text
  start h := .single h.start
  stop h := .single h.stop
  join ha hb := ⟨ha.start, hb.start.max ha.start, hb.start.le_max_right ha.start⟩

theorem AlikeOn.tokens {G : Grounds} {ts : List Token} (h : ∀ t ∈ ts, G.Allows t.span) :
    AlikeOn G ts ts :=
  ⟨List.map_congr_left fun t ht => (AlikeOn.token (h t ht) t.span).eq⟩

/-- Whatever is like itself on some grounds has only spans that are allowed there. -/
theorem AlikeOn.allows_spans {G : Grounds} {p : Program} (h : AlikeOn G p p) :
    ∀ span ∈ p.spans, G.Allows span := by
  have hcover : p.spans.map G.cover = p.spans.map fun _ => default := by
    rw [← Program.spans_respan, h.eq, eraseSpans, Program.spans_respan]
  exact fun span hspan => G.cover_eq_default.1 (List.map_inj_left.1 hcover span hspan)

theorem AlikeOn.allows_errors {G : Grounds} {ds : List Diagnostic} (h : AlikeOn G ds ds) :
    ∀ d ∈ ds, ∀ span, d.span = some span → G.Allows span := by
  intro d hd span hspan
  have hcover : respan G.cover d = eraseSpans d := List.map_inj_left.1 h.eq d hd
  have hpointed := congrArg Diagnostic.span hcover
  have hsome : some (G.cover span) = some default := by
    simpa [respan, eraseSpans, hspan] using hpointed
  exact G.cover_eq_default.1 (Option.some.inj hsome)

namespace Token

theorem Scanner.spelled_next (s : Scanner) :
    ∀ spelling, s.next.1.kind.symbol = some spelling → s.next.1.lexeme = spelling := by
  unfold Scanner.next
  dsimp only
  split
  · exact fun _ h => absurd h nofun
  · intro spelling h
    have hlexeme := spelled_reading _ _ _ _ spelling h
    rw [hlexeme, String.ofList_toList]

/-- A token of a kind with a fixed spelling is spelled that way. -/
theorem spelled_scan (source : String) : ∀ t ∈ (scan source).1, ∀ spelling,
    t.kind.symbol = some spelling → t.lexeme = spelling :=
  Scanner.forall_run Scanner.spelled_next _ _

/-- The tokens of a text stand on its grounds, and so do the halves of each `>>`. -/
theorem allows_scan (source : String) : ∀ t ∈ (scan source).1,
    (Grounds.within source.toList).Allows t.span ∧
      Grammar.AllowsHalves (.within source.toList) t := by
  intro t ht
  refine ⟨(tiles_scan source).span_isIn ht, fun hk => ?_⟩
  have hlexeme : t.lexeme = ">>" := spelled_scan source t ht ">>" (congrArg Kind.symbol hk)
  obtain ⟨before, rest, htext, hspan⟩ := (tiles_scan source).exists_split ht
  have htwo : t.lexeme.toList = ['>'] ++ ['>'] := by rw [hlexeme]; rfl
  have hhalf : (placeBehind before).half = placeBehind (before ++ ['>']) :=
    (placeBehind_concat before '>').symm
  rw [htwo, ← List.append_assoc before] at hspan
  rw [hspan]
  dsimp only
  rw [hhalf]
  rw [List.nil_append, htwo] at htext
  rw [htext]
  refine ⟨?_, ?_⟩
  · rw [List.append_assoc]
    exact Span.isIn_between before ['>'] (['>'] ++ rest)
  · rw [List.append_assoc, ← List.append_assoc before]
    exact Span.isIn_between (before ++ ['>']) ['>'] rest

end Token

/-! ## Merged diagnostics -/

namespace Diagnostic

theorem precedes_trans (a b c : Diagnostic) (hab : a.precedes b) (hbc : b.precedes c) :
    a.precedes c := by
  simp only [precedes, decide_eq_true_eq] at *
  omega

theorem precedes_total (a b : Diagnostic) : a.precedes b || b.precedes a := by
  simp only [precedes, Bool.or_eq_true, decide_eq_true_eq]
  omega

namespace Collection

theorem mem_or_eq_of_mem_addError {c : Collection} {d e : Diagnostic} (h : e ∈ (c.addError d).errors) :
    e ∈ c.errors ∨ e = d := by
  unfold addError at h
  split at h
  · simpa using h
  · exact .inl h

/-- A merged error was in one of the two collections. -/
theorem mem_merge {c other : Collection} {e : Diagnostic} (h : e ∈ (c.merge other).errors) :
    e ∈ c.errors ∨ e ∈ other.errors := by
  have hfold : ∀ (ds : List Diagnostic) (c : Collection), e ∈ (ds.foldl addError c).errors →
      e ∈ c.errors ∨ e ∈ ds := by
    intro ds
    induction ds with
    | nil => exact fun _ h => .inl h
    | cons d more ih =>
      intro c h
      rcases ih _ h with h | h
      · rcases mem_or_eq_of_mem_addError h with h | rfl
        · exact .inl h
        · exact .inr List.mem_cons_self
      · exact .inr (List.mem_cons_of_mem _ h)
  exact hfold other.errors c (List.mem_mergeSort.1 h)

/-- Merged errors stand in order. -/
theorem merge_pairwise (c other : Collection) :
    (c.merge other).errors.Pairwise fun d e => d.sortKey ≤ e.sortKey := by
  have hsorted := List.pairwise_mergeSort precedes_trans precedes_total
    (other.errors.foldl addError c).errors
  exact hsorted.imp fun h => of_decide_eq_true h

theorem warnings_merge (c other : Collection) :
    (c.merge other).warnings = c.warnings ++ other.warnings := by
  have hfold : ∀ (ds : List Diagnostic) (c : Collection),
      (ds.foldl addError c).warnings = c.warnings := by
    intro ds
    induction ds with
    | nil => exact fun _ => rfl
    | cons d more ih =>
      intro c
      rw [List.foldl_cons, ih]
      unfold addError
      split <;> rfl
  show (other.errors.foldl addError c).warnings ++ other.warnings = _
  rw [hfold]

end Collection

end Diagnostic

/-! ## Texts -/

/-- The diagnostics about a text are those about its characters and those about its tokens. -/
theorem parse_errors (source : String) (config : Config) : (parse source config).errors =
    ((Diagnostic.Collection.empty config.maxErrors).merge { errors := (Token.scan source).2 }).merge
      (parseTokens (Token.scan source).1 config).errors := by
  unfold parse
  rfl

/-- Every span in the tree of a text, and the span of every diagnostic about it, runs from one boundary
of the text to another that is not before it; every diagnostic has a span, and the errors, beside which
there are no warnings, stand in the order of the offsets they start at. -/
theorem parse_positions (source : String) (config : Config) :
    (∀ span ∈ (parse source config).program.spans, span.IsIn source.toList) ∧
      (∀ d ∈ (parse source config).errors.errors, d.IsIn source.toList) ∧
      (parse source config).errors.warnings = [] ∧
      (parse source config).errors.errors.Pairwise fun d e => ∀ span span' : Span,
        d.span = some span → e.span = some span' → span.start.offset ≤ span'.start.offset := by
  have hrest : AlikeOn (.within source.toList) (Grammar.closeTokens (Token.scan source).1)
      (Grammar.closeTokens (Token.scan source).1) := by
    rw [Token.closeTokens_scan]
    exact .tokens fun t ht => (Token.allows_scan source t ht).1
  have hhalves : ∀ t ∈ Grammar.closeTokens (Token.scan source).1,
      Grammar.AllowsHalves (.within source.toList) t := by
    rw [Token.closeTokens_scan]
    exact fun t ht => (Token.allows_scan source t ht).2
  obtain ⟨hprogram, herrors, hlocated, hunwarned⟩ := parseTokens_alike config hrest hhalves
  have hparsed : ∀ d ∈ (parseTokens (Token.scan source).1 config).errors.errors,
      d.IsIn source.toList := by
    intro d hd
    obtain ⟨span, hspan⟩ := Option.isSome_iff_exists.1 (hlocated d hd)
    exact ⟨span, hspan, herrors.allows_errors d hd span hspan⟩
  rw [parse_errors, parse_program]
  refine ⟨hprogram.allows_spans, ?_, ?_, ?_⟩
  · intro d hd
    rcases Diagnostic.Collection.mem_merge hd with hd | hd
    · rcases Diagnostic.Collection.mem_merge hd with hd | hd
      · exact absurd hd List.not_mem_nil
      · exact Token.isIn_scan source d hd
    · exact hparsed d hd
  · rw [Diagnostic.Collection.warnings_merge, hunwarned, Diagnostic.Collection.warnings_merge]
    rfl
  · refine (Diagnostic.Collection.merge_pairwise _ _).imp fun hle span span' hd he => ?_
    simpa only [Diagnostic.sortKey, hd, he] using hle

end FluxFront
