import FluxFront.Proofs.Boundaries
import FluxFront.Proofs.Structural

/-!
# Scanning loses nothing

A text is cut into gaps and tokens, and nothing of it is lost, doubled or moved.

* **Program**: `Token.scan` reads tokens off the front of the text and keeps count of the place where
  it stands.
* **Specification**: `IsGap` says what may stand between two tokens, and `Tiles` that gaps and tokens
  one after the other make up the text.  Both look at the characters only; every place is counted anew
  by `placeBehind`.
* **Crux**: each reading splits what is left into a lexeme and a rest (`Reading.Splits`), so the place
  behind it is the place behind the lexeme.  Whether a text ends in the middle of a comment, a quoted
  text or a raw block, the split is the same.
-/

namespace FluxFront.Token

/-! ## Gaps and tilings -/

/-- The report of a character that starts no token. -/
def strayCharacter (front : List Char) (c : Char) : Diagnostic :=
  .located .invalidCharacter ("Unexpected character '" ++ c.toString ++ "'")
    ⟨placeBehind front, placeBehind (front ++ [c])⟩

/-- The report of a comment that is not closed. -/
def openComment (front comment : List Char) : Diagnostic :=
  .located .unterminatedComment "Unterminated block comment"
    ⟨placeBehind front, placeBehind (front ++ comment)⟩

/-- Behind `front` and in front of `rest`, the characters `gap` belong to no token, and what has to be
reported about them is reported. -/
inductive IsGap (reported : Diagnostic → Prop) : List Char → List Char → List Char → Prop
  | nil (front rest : List Char) : IsGap reported front [] rest
  | blank {front gap rest : List Char} {c : Char} (hc : Text.isBlank c = true)
      (h : IsGap reported (front ++ [c]) gap rest) : IsGap reported front (c :: gap) rest
  /-- A comment up to the end of its line or of the text. -/
  | lineComment {front body gap rest : List Char} (hbody : '\n' ∉ body)
      (hend : ∀ c ∈ (gap ++ rest).head?, c = '\n')
      (h : IsGap reported (front ++ '/' :: '/' :: body) gap rest) :
      IsGap reported front ('/' :: '/' :: (body ++ gap)) rest
  /-- A comment up to the first mark that closes it. -/
  | blockComment {front body gap rest : List Char} (hbody : ¬ ['*', '/'] <:+: body ++ ['*'])
      (h : IsGap reported (front ++ '/' :: '*' :: (body ++ ['*', '/'])) gap rest) :
      IsGap reported front ('/' :: '*' :: (body ++ '*' :: '/' :: gap)) rest
  /-- A comment that goes on to the end of the text. -/
  | openComment {front body : List Char} (hbody : ¬ ['*', '/'] <:+: body)
      (h : reported (openComment front ('/' :: '*' :: body))) :
      IsGap reported front ('/' :: '*' :: body) []
  | stray {front gap rest : List Char} {c : Char} (hc : startsToken c = false)
      (hreport : reported (strayCharacter front c)) (h : IsGap reported (front ++ [c]) gap rest) :
      IsGap reported front (c :: gap) rest

/-- Behind `front`, the text is a gap, a token, a gap, a token and so on up to its end, and each token
has the span of its lexeme. -/
inductive Tiles (reported : Diagnostic → Prop) : List Char → List Char → List Token → Prop
  | done {front gap : List Char} (h : IsGap reported front gap []) :
      Tiles reported front gap [endAt (placeBehind (front ++ gap))]
  | token {front gap rest : List Char} {t : Token} {more : List Token}
      (hgap : IsGap reported front gap (t.lexeme.toList ++ rest)) (kind : t.kind ≠ .eof)
      (lexeme : t.lexeme ≠ "")
      (span : t.span = ⟨placeBehind (front ++ gap), placeBehind (front ++ gap ++ t.lexeme.toList)⟩)
      (h : Tiles reported (front ++ gap ++ t.lexeme.toList) rest more) :
      Tiles reported front (gap ++ (t.lexeme.toList ++ rest)) (t :: more)

/-! ## What a tiling says about tokens -/

namespace Tiles

variable {reported : Diagnostic → Prop} {front text : List Char} {tokens : List Token}

/-- The text ends once, behind all its characters. -/
theorem exists_end (h : Tiles reported front text tokens) :
    ∃ before, tokens = before ++ [endAt (placeBehind (front ++ text))] ∧
      ∀ t ∈ before, t.kind ≠ .eof ∧ t.lexeme ≠ "" := by
  induction h with
  | done => exact ⟨[], rfl, List.forall_mem_nil _⟩
  | @token front gap rest t more _ kind lexeme _ _ ih =>
    obtain ⟨before, rfl, hbefore⟩ := ih
    refine ⟨t :: before, ?_, List.forall_mem_cons.2 ⟨⟨kind, lexeme⟩, hbefore⟩⟩
    simp

/-- A token stands for the characters between its two ends. -/
theorem exists_split (h : Tiles reported front text tokens) {t : Token} (ht : t ∈ tokens) :
    ∃ before rest, front ++ text = before ++ (t.lexeme.toList ++ rest) ∧
      t.span = ⟨placeBehind before, placeBehind (before ++ t.lexeme.toList)⟩ := by
  induction h with
  | @done front gap =>
    cases List.mem_singleton.1 ht
    refine ⟨front ++ gap, [], by simp [endAt], ?_⟩
    simp [endAt, Span.single]
  | @token front gap rest t' more _ _ _ span _ ih =>
    rcases List.mem_cons.1 ht with rfl | ht
    · exact ⟨front ++ gap, rest, by simp, span⟩
    · obtain ⟨before, rest', htext, hspan⟩ := ih ht
      exact ⟨before, rest', by rw [← htext]; simp, hspan⟩

theorem span_isIn (h : Tiles reported front text tokens) {t : Token} (ht : t ∈ tokens) :
    t.span.IsIn (front ++ text) := by
  obtain ⟨before, rest, htext, hspan⟩ := h.exists_split ht
  rw [htext, hspan]
  exact Span.isIn_between _ _ _

/-- The tokens stand behind `front`. -/
theorem offset_le (h : Tiles reported front text tokens) :
    ∀ t ∈ tokens, (placeBehind front).offset ≤ t.span.start.offset := by
  induction h with
  | done => exact List.forall_mem_singleton.2 (placeBehind_le _ _).2
  | @token front gap rest t more _ _ _ span _ ih =>
    refine List.forall_mem_cons.2 ⟨?_, fun u hu => Nat.le_trans ?_ (ih u hu)⟩
    · rw [span]
      exact (placeBehind_le _ _).2
    · rw [List.append_assoc]
      exact (placeBehind_le _ _).2

/-- The tokens do not overlap. -/
theorem pairwise (h : Tiles reported front text tokens) :
    tokens.Pairwise fun t u => t.span.stop.offset ≤ u.span.start.offset := by
  induction h with
  | done => exact List.pairwise_singleton _ _
  | token _ _ _ span hmore ih =>
    refine List.pairwise_cons.2 ⟨fun u hu => ?_, ih⟩
    rw [span]
    exact hmore.offset_le u hu

end Tiles

/-! ## The scanner skips gaps -/

/-- What a mode of skipping has read of a text when it stops in front of a token or at the end. -/
def GapMode.Skips (reported : Diagnostic → Prop) (front text : List Char) (g : Gap) : GapMode → Prop
  | .blank => ∃ gap, text = gap ++ g.rest ∧ g.here = placeBehind (front ++ gap) ∧
      IsGap reported front gap g.rest
  | .lineComment => ∃ body gap, text = body ++ (gap ++ g.rest) ∧ '\n' ∉ body ∧
      (∀ c ∈ (gap ++ g.rest).head?, c = '\n') ∧ g.here = placeBehind (front ++ body ++ gap) ∧
      IsGap reported (front ++ body) gap g.rest
  | .blockComment opened =>
    (∃ body gap, text = body ++ '*' :: '/' :: (gap ++ g.rest) ∧ ¬ ['*', '/'] <:+: body ++ ['*'] ∧
      g.here = placeBehind (front ++ (body ++ ['*', '/']) ++ gap) ∧
      IsGap reported (front ++ (body ++ ['*', '/'])) gap g.rest) ∨
    (g.rest = [] ∧ ¬ ['*', '/'] <:+: text ∧ g.here = placeBehind (front ++ text) ∧
      reported (.located .unterminatedComment "Unterminated block comment"
        ⟨opened, placeBehind (front ++ text)⟩))

/-- A mark that closes a comment does not start at a character in front of which there is none. -/
theorem not_infix_cons {c : Char} {text : List Char} (hc : ∀ rest, c = '*' → text ≠ '/' :: rest)
    (h : ¬ ['*', '/'] <:+: text) : ¬ ['*', '/'] <:+: c :: text := by
  rw [List.infix_cons_iff]
  rintro (hstart | hlater)
  · obtain ⟨rest, hrest⟩ := hstart
    simp only [List.cons_append, List.nil_append, List.cons.injEq] at hrest
    exact hc rest hrest.1.symm hrest.2.symm
  · exact h hlater

namespace GapMode.Skips

variable {reported : Diagnostic → Prop} {front rest : List Char} {g : Gap}

/-- The end of a line is a blank of the gap behind the comment. -/
theorem endLine (h : GapMode.blank.Skips reported (front ++ ['\n']) rest g) :
    GapMode.lineComment.Skips reported front ('\n' :: rest) g := by
  obtain ⟨gap, hrest, hplace, hgap⟩ := h
  refine ⟨[], '\n' :: gap, congrArg ('\n' :: ·) hrest, List.not_mem_nil, by simp,
    by simpa using hplace, ?_⟩
  rw [List.append_nil]
  exact .blank (by decide) hgap

theorem inLine {c : Char} (hc : c ≠ '\n')
    (h : GapMode.lineComment.Skips reported (front ++ [c]) rest g) :
    GapMode.lineComment.Skips reported front (c :: rest) g := by
  obtain ⟨body, gap, hrest, hbody, hend, hplace, hgap⟩ := h
  refine ⟨c :: body, gap, congrArg (c :: ·) hrest, ?_, hend, by simpa using hplace, by simpa using hgap⟩
  simpa [Ne.symm hc] using hbody

theorem inComment {opened : Location} {c : Char} (hclose : ∀ rest', c = '*' → rest ≠ '/' :: rest')
    (h : (GapMode.blockComment opened).Skips reported (front ++ [c]) rest g) :
    (GapMode.blockComment opened).Skips reported front (c :: rest) g := by
  rcases h with ⟨body, gap, hrest, hbody, hplace, hgap⟩ | ⟨hrest, hbody, hplace, hopen⟩
  · refine .inl ⟨c :: body, gap, congrArg (c :: ·) hrest, ?_, by simpa using hplace,
      by simpa using hgap⟩
    refine not_infix_cons (fun rest' hc hr => ?_) hbody
    -- a closing mark at `c` would have been seen
    cases body with
    | nil => simp at hr
    | cons b body =>
      obtain ⟨rfl, -⟩ : b = '/' ∧ body ++ ['*'] = rest' := by simpa using hr
      exact hclose _ hc hrest
  · exact .inr ⟨hrest, not_infix_cons hclose hbody, by simpa using hplace, by simpa using hopen⟩

/-- A comment that is closed goes on as a gap, and one that is not is its end. -/
theorem openComment
    (h : (GapMode.blockComment (placeBehind front)).Skips reported (front ++ ['/', '*']) rest g) :
    GapMode.blank.Skips reported front ('/' :: '*' :: rest) g := by
  rcases h with ⟨body, gap, hrest, hbody, hplace, hgap⟩ | ⟨hrest, hbody, hplace, hopen⟩
  · refine ⟨'/' :: '*' :: (body ++ '*' :: '/' :: gap), by simpa using hrest, by simpa using hplace, ?_⟩
    exact .blockComment hbody (by simpa using hgap)
  · refine ⟨'/' :: '*' :: rest, by simp [hrest], by simpa using hplace, ?_⟩
    rw [hrest]
    refine .openComment hbody ?_
    simpa [Token.openComment] using hopen

end GapMode.Skips

theorem skipGap_skips (reported : Diagnostic → Prop) (mode : GapMode) (here : Location)
    (afterAsm : Bool) (text : List Char) {front : List Char} (hhere : here = placeBehind front)
    (hreport : ∀ d ∈ (skipGap mode here afterAsm text).errors, reported d) :
    mode.Skips reported front text (skipGap mode here afterAsm text) := by
  fun_induction skipGap mode here afterAsm text generalizing front with
  | case1 opened here afterAsm =>
    refine .inr ⟨rfl, by simp, by simp [hhere], ?_⟩
    rw [List.append_nil, ← hhere]
    exact hreport _ List.mem_cons_self
  | case2 mode here afterAsm hmode =>
    cases mode with
    | blank => exact ⟨[], rfl, by simp [hhere], .nil _ _⟩
    | lineComment => exact ⟨[], [], rfl, List.not_mem_nil, by simp, by simp [hhere], .nil _ _⟩
    | blockComment opened => exact absurd rfl (hmode opened)
  | case3 here afterAsm c rest ih =>
    have h := ih (show _ = placeBehind (front ++ [c]) by rw [hhere, placeBehind_concat]) hreport
    by_cases hc : c = '\n'
    · rw [if_pos hc] at h ⊢
      subst hc
      exact h.endLine
    · rw [if_neg hc] at h ⊢
      exact h.inLine hc
  | case4 opened here afterAsm rest ih =>
    have h := ih (show _ = placeBehind (front ++ ['*', '/']) by simp [hhere, placeBehind_append]) hreport
    obtain ⟨gap, hrest, hplace, hgap⟩ := h
    refine .inl ⟨[], gap, congrArg ('*' :: '/' :: ·) hrest, by decide, by simpa using hplace,
      by simpa using hgap⟩
  | case5 opened here afterAsm c rest hne ih =>
    have h := ih (show _ = placeBehind (front ++ [c]) by rw [hhere, placeBehind_concat]) hreport
    exact h.inComment fun rest' hc hr => hne rest' hc hr
  | case6 here afterAsm rest ih =>
    have h := ih (show _ = placeBehind (front ++ ['/', '/']) by simp [hhere, placeBehind_append]) hreport
    obtain ⟨body, gap, hrest, hbody, hend, hplace, hgap⟩ := h
    refine ⟨'/' :: '/' :: (body ++ gap), by simpa using hrest, by simpa using hplace, ?_⟩
    exact .lineComment hbody hend (by simpa using hgap)
  | case7 here afterAsm rest ih =>
    subst hhere
    have h := ih (show _ = placeBehind (front ++ ['/', '*']) by simp [placeBehind_append]) hreport
    exact h.openComment
  | case8 here afterAsm c rest _ _ hblank ih =>
    have h := ih (show _ = placeBehind (front ++ [c]) by rw [hhere, placeBehind_concat]) hreport
    obtain ⟨gap, hrest, hplace, hgap⟩ := h
    exact ⟨c :: gap, congrArg (c :: ·) hrest, by simpa using hplace, .blank hblank hgap⟩
  | case9 => exact ⟨[], rfl, by simp [hhere], .nil _ _⟩
  | case10 here afterAsm c rest _ _ hblank hstart g error =>
    rename_i ih
    have hrec : ∀ d ∈ g.errors, reported d := fun d hd => hreport d (List.mem_cons_of_mem _ hd)
    have h := ih (show _ = placeBehind (front ++ [c]) by rw [hhere, placeBehind_concat]) hrec
    obtain ⟨gap, hrest, hplace, hgap⟩ := h
    refine ⟨c :: gap, congrArg (c :: ·) hrest, by simpa using hplace,
      .stray (by simpa using hstart) ?_ hgap⟩
    rw [strayCharacter, placeBehind_concat, ← hhere]
    exact hreport _ List.mem_cons_self

/-- A comment that is being skipped was opened behind some part of what was read. -/
def GapMode.OpenIn (front : List Char) : GapMode → Prop
  | .blockComment opened => ∃ before body, front = before ++ body ∧ opened = placeBehind before
  | _ => True

theorem GapMode.OpenIn.append {mode : GapMode} {front : List Char} (h : mode.OpenIn front)
    (more : List Char) : mode.OpenIn (front ++ more) := by
  cases mode with
  | blank => trivial
  | lineComment => trivial
  | blockComment opened =>
    obtain ⟨before, body, rfl, hopened⟩ := h
    exact ⟨before, body ++ more, List.append_assoc _ _ _, hopened⟩

/-- A report about characters of a text points into it. -/
theorem isIn_located {kind : Diagnostic.Kind} {message : String} (front body rest : List Char) :
    (Diagnostic.located kind message ⟨placeBehind front, (placeBehind front).after body⟩).IsIn
      (front ++ (body ++ rest)) := by
  rw [← placeBehind_append]
  exact ⟨_, rfl, Span.isIn_between _ _ _⟩

/-- A report about the first characters that are left points into the text. -/
theorem isIn_lexeme {kind : Diagnostic.Kind} {message : String} {front text lexeme rest : List Char}
    (h : text = lexeme ++ rest) :
    (Diagnostic.located kind message ⟨placeBehind front, (placeBehind front).after lexeme⟩).IsIn
      (front ++ text) := by
  rw [h]
  exact isIn_located front lexeme rest

/-- What is reported in a gap points into the text. -/
theorem skipGap_isIn (mode : GapMode) (here : Location) (afterAsm : Bool) (text : List Char)
    {front : List Char} (hhere : here = placeBehind front) (hopen : mode.OpenIn front) :
    ∀ d ∈ (skipGap mode here afterAsm text).errors, d.IsIn (front ++ text) := by
  fun_induction skipGap mode here afterAsm text generalizing front with
  | case1 opened here afterAsm =>
    obtain ⟨before, body, rfl, rfl⟩ := hopen
    refine List.forall_mem_singleton.2 ?_
    rw [hhere, placeBehind_append, List.append_assoc]
    exact isIn_located before body []
  | case2 => exact List.forall_mem_nil _
  | case3 here afterAsm c rest ih =>
    rw [List.append_cons]
    refine ih (by rw [hhere, placeBehind_concat]) ?_
    split <;> trivial
  | case4 opened here afterAsm rest ih =>
    rw [List.append_cons, List.append_cons]
    exact ih (by rw [hhere, placeBehind_concat, placeBehind_concat]) trivial
  | case5 opened here afterAsm c rest _ ih =>
    rw [List.append_cons]
    exact ih (by rw [hhere, placeBehind_concat]) (hopen.append [c])
  | case6 here afterAsm rest ih =>
    rw [List.append_cons, List.append_cons]
    exact ih (by rw [hhere, placeBehind_concat, placeBehind_concat]) trivial
  | case7 here afterAsm rest ih =>
    rw [List.append_cons, List.append_cons]
    exact ih (by rw [hhere, placeBehind_concat, placeBehind_concat])
      ⟨front, ['/', '*'], List.append_cons _ _ _ |>.symm, hhere⟩
  | case8 here afterAsm c rest _ _ _ ih =>
    rw [List.append_cons]
    exact ih (by rw [hhere, placeBehind_concat]) trivial
  | case9 => exact List.forall_mem_nil _
  | case10 here afterAsm c rest _ _ _ _ _ _ =>
    rename_i ih
    refine List.forall_mem_cons.2 ⟨?_, ?_⟩
    · subst hhere
      exact isIn_located front [c] rest
    · rw [List.append_cons]
      exact ih (by rw [hhere, placeBehind_concat]) trivial

/-! ## Readings split the text -/

/-- A reading behind `front` takes some characters off the text and leaves the others. -/
structure Reading.Splits (front text : List Char) (r : Reading) : Prop where
  text_eq : text = r.lexeme ++ r.rest
  kind : r.kind ≠ .eof
  errors : ∀ d ∈ r.errors, d.IsIn (front ++ text)

theorem splits_operator {front text lexeme rest : List Char} {kind : Kind}
    (h : Kind.matchOperator? text = some (kind, lexeme, rest)) :
    Reading.Splits front text ⟨kind, lexeme, rest, none, []⟩ := by
  obtain ⟨hk, -, htext⟩ := operator_of_match h
  have table : ∀ k ∈ Kind.operators, k ≠ .eof := by decide
  exact ⟨htext, table kind hk, List.forall_mem_nil _⟩

theorem escapeErrors_isIn (front : List Char) (c : Char) (rest : List Char) :
    ∀ d ∈ escapeErrors (placeBehind front) c, d.IsIn (front ++ c :: rest) := by
  unfold escapeErrors
  split
  · exact List.forall_mem_nil _
  · exact List.forall_mem_singleton.2 (isIn_located front [c] rest)

/-- The inside of a quoted text is taken off the front. -/
theorem readQuoted_splits (quote : Char) (here : Location) (text : List Char) {front : List Char}
    (hhere : here = placeBehind front) :
    text = (readQuoted quote here text).taken ++ (readQuoted quote here text).rest ∧
      ∀ d ∈ (readQuoted quote here text).errors, d.IsIn (front ++ text) := by
  fun_induction readQuoted quote here text generalizing front with
  | case1 => exact ⟨rfl, List.forall_mem_nil _⟩
  | case2 => exact ⟨rfl, List.forall_mem_nil _⟩
  | case3 => exact ⟨rfl, List.forall_mem_nil _⟩
  | case4 here e behind _ q =>
    rename_i ih
    obtain ⟨hrest, herrors⟩ := ih (show _ = placeBehind (front ++ ['\\', e]) by simp [hhere, placeBehind_append])
    refine ⟨congrArg ('\\' :: e :: ·) hrest, List.forall_mem_append.2 ⟨?_, by simpa using herrors⟩⟩
    simpa [hhere, placeBehind_concat] using escapeErrors_isIn (front ++ ['\\']) e behind
  | case5 here c text _ _ q =>
    rename_i ih
    obtain ⟨hrest, herrors⟩ := ih (show _ = placeBehind (front ++ [c]) by rw [hhere, placeBehind_concat])
    exact ⟨congrArg (c :: ·) hrest, by simpa using herrors⟩

theorem readString_splits {kind : Kind} (hkind : kind ≠ .eof) (decode : List Char → Value)
    (front opening text : List Char) :
    (readString kind decode opening (placeBehind front) text).Splits front (opening ++ text) := by
  obtain ⟨htext, herrors⟩ := readQuoted_splits '"' _ text (placeBehind_append front opening).symm
  have hsplit : opening ++ text = (opening ++ (readQuoted '"' ((placeBehind front).after opening)
      text).taken) ++ (readQuoted '"' ((placeBehind front).after opening) text).rest := by
    rw [List.append_assoc, ← htext]
  refine ⟨hsplit, hkind, List.forall_mem_append.2 ⟨?_, ?_⟩⟩
  · rw [← List.append_assoc]
    exact herrors
  · split
    · exact List.forall_mem_nil _
    · exact List.forall_mem_singleton.2 (isIn_lexeme hsplit)

/-- The inside of a character literal is taken off the front. -/
theorem readCharBody_splits (front text : List Char) :
    text = (readCharBody (placeBehind front) text).1 ++ (readCharBody (placeBehind front) text).2.1 ∧
      ∀ d ∈ (readCharBody (placeBehind front) text).2.2.2, d.IsIn (front ++ text) := by
  fun_cases readCharBody (placeBehind front) text with
  | case3 e behind =>
    refine ⟨rfl, ?_⟩
    simpa [placeBehind_concat] using escapeErrors_isIn (front ++ ['\\']) e behind
  | case1 | case2 | case4 | case5 => exact ⟨rfl, List.forall_mem_nil _⟩

theorem readChar_splits (front text : List Char) :
    (readChar (placeBehind front) text).Splits front ('\'' :: text) := by
  obtain ⟨htext, herrors⟩ := readCharBody_splits (front ++ ['\'']) text
  rw [placeBehind_concat] at htext herrors
  rw [← List.append_cons] at herrors
  unfold readChar
  split
  rename_i taken behind value errors hbody
  rw [hbody] at htext herrors
  split
  rename_i close rest hclose
  have hbehind : behind = close ++ rest := by
    split at hclose <;> cases hclose <;> rfl
  have hsplit : '\'' :: text = ('\'' :: (taken ++ close)) ++ rest := by
    rw [htext, hbehind, List.cons_append, List.append_assoc]
  dsimp only
  split
  · exact ⟨hsplit, by simp, herrors⟩
  · refine ⟨hsplit, by simp, List.forall_mem_append.2 ⟨herrors, ?_⟩⟩
    exact List.forall_mem_singleton.2 (isIn_lexeme hsplit)

theorem numberReading_splits {kind : Kind} (hkind : kind ≠ .eof) {front text lexeme rest : List Char}
    (htext : text = lexeme ++ rest) (value : Value) (valid : Bool) :
    (numberReading kind (placeBehind front) lexeme rest value valid).Splits front text := by
  refine ⟨htext, hkind, ?_⟩
  cases valid with
  | true => exact List.forall_mem_nil _
  | false => exact List.forall_mem_singleton.2 (isIn_lexeme htext)

theorem readRadix_splits (radix : Nat) (mark : Char) (front text : List Char) :
    (readRadix radix mark (placeBehind front) text).Splits front ('0' :: mark :: text) := by
  have htext : '0' :: mark :: text = ('0' :: mark :: text.takeWhile isAlphanumOrMark) ++
      text.dropWhile isAlphanumOrMark := by
    simp
  unfold readRadix
  dsimp only
  split
  · exact numberReading_splits (by decide) htext _ _
  · exact numberReading_splits (by decide) htext _ _

theorem takeFraction_append (text : List Char) :
    (takeFraction text).1 ++ (takeFraction text).2 = text := by
  fun_cases takeFraction text <;> simp

theorem takeExponent_append (text : List Char) :
    (takeExponent text).1 ++ (takeExponent text).2 = text := by
  fun_cases takeExponent text <;> simp

theorem readDecimal_splits (front text : List Char) :
    (readDecimal (placeBehind front) text).Splits front text := by
  have htext : text = (text.takeWhile isDigitOrMark ++ (takeFraction (text.dropWhile
      isDigitOrMark)).1 ++ (takeExponent (takeFraction (text.dropWhile isDigitOrMark)).2).1) ++
      (takeExponent (takeFraction (text.dropWhile isDigitOrMark)).2).2 := by
    rw [List.append_assoc, takeExponent_append, List.append_assoc, takeFraction_append,
      List.takeWhile_append_dropWhile]
  unfold readDecimal
  dsimp only
  split
  · exact numberReading_splits (by decide) htext _ _
  · exact numberReading_splits (by decide) htext _ _

theorem readNumber_splits (front text : List Char) :
    (readNumber (placeBehind front) text).Splits front text := by
  fun_cases readNumber (placeBehind front) text with
  | case1 mark behind radix => exact readRadix_splits radix mark front behind
  | case2 | case3 => exact readDecimal_splits front _

theorem readName_splits (front : List Char) (c : Char) (text : List Char) :
    (readName c text).Splits front (c :: text) := by
  refine ⟨?_, ?_, List.forall_mem_nil _⟩
  · show c :: text = c :: text.takeWhile Text.continuesName ++ text.dropWhile Text.continuesName
    simp
  · show (Kind.ofKeyword? _).getD .identifier ≠ .eof
    cases h : Kind.ofKeyword? (String.ofList (c :: text.takeWhile Text.continuesName)) with
    | none => decide
    | some k =>
      have hk : k ∈ Kind.keywords := Kind.mem_of_ofKeyword h
      rintro rfl
      exact absurd hk (by decide)

theorem takeRaw_append (depth : Nat) (text : List Char) :
    (takeRaw depth text).1 ++ (takeRaw depth text).2 = text := by
  fun_induction takeRaw depth text with
  | case1 => rfl
  | case2 => rfl
  | case3 text outer ih => simp [ih]
  | case4 depth c text _ ih => simp [ih]

theorem readRaw_splits (front text : List Char) :
    (readRaw (placeBehind front) text).Splits front ('{' :: text) := by
  have htext := takeRaw_append 0 text
  unfold readRaw
  generalize takeRaw 0 text = split at htext ⊢
  obtain ⟨raw, behind⟩ := split
  cases behind with
  | nil =>
    have hsplit : '{' :: text = ('{' :: raw) ++ [] := by simpa using htext.symm
    exact ⟨hsplit, by simp, List.forall_mem_singleton.2 (isIn_lexeme hsplit)⟩
  | cons close rest => exact ⟨by simpa using htext.symm, by simp, List.forall_mem_nil _⟩

/-- A token is taken off the front of the text. -/
theorem readToken_splits (front : List Char) (c : Char) (text : List Char) :
    (readToken (placeBehind front) c text).Splits front (c :: text) := by
  unfold readToken
  split
  · rename_i hm
    exact splits_operator hm
  · split
    · rename_i hc
      rw [hc]
      exact readString_splits (by decide) stringValue front ['"'] text
    · split
      · rename_i hc
        rw [hc]
        exact readChar_splits front text
      · split
        · exact readNumber_splits front (c :: text)
        · split
          · exact readString_splits (by decide) partsValue front ['i', '"'] _
          · exact readName_splits front _ _

/-! ## The scanner tiles the text -/

/-- A reading of a text that goes on splits it, and takes some of it. -/
theorem reading_splits (raw : Bool) (front : List Char) (c : Char) (text : List Char) :
    (if raw && c == '{' then readRaw (placeBehind front) text
      else readToken (placeBehind front) c text).Splits front (c :: text) ∧
    (if raw && c == '{' then readRaw (placeBehind front) text
      else readToken (placeBehind front) c text).lexeme ≠ [] := by
  split
  · rename_i h
    obtain rfl : c = '{' := by simpa using (Bool.and_eq_true_iff.1 h).2
    exact ⟨readRaw_splits front text, (filled_readRaw _ _).lexeme⟩
  · exact ⟨readToken_splits front c text, (filled_readToken _ _ _).lexeme⟩

/-- Either the rest of the text is a gap, or the next token stands behind a gap and what is left
behind the token is shorter. -/
theorem Scanner.next_tiles {s : Scanner} {front : List Char} (hhere : s.here = placeBehind front)
    {reported : Diagnostic → Prop} (hreport : ∀ d ∈ s.next.2.1, reported d) :
    (s.next.1.kind = .eof ∧ Tiles reported front s.rest [s.next.1]) ∨
    (s.next.1.kind ≠ .eof ∧ s.next.2.2.rest.length < s.rest.length ∧
      ∃ front', front ++ s.rest = front' ++ s.next.2.2.rest ∧ s.next.2.2.here = placeBehind front' ∧
        ∀ more, Tiles reported front' s.next.2.2.rest more →
          Tiles reported front s.rest (s.next.1 :: more)) := by
  have skips := skipGap_skips reported .blank s.here s.afterAsm s.rest hhere
  unfold Scanner.next at hreport ⊢
  generalize skipGap .blank s.here s.afterAsm s.rest = g at skips hreport ⊢
  obtain ⟨rest, here, afterAsm, errors⟩ := g
  cases rest with
  | nil =>
    obtain ⟨gap, hrest, hplace, hgap⟩ := skips hreport
    dsimp only at hrest hplace hgap ⊢
    refine .inl ⟨rfl, ?_⟩
    rw [hrest, List.append_nil, hplace]
    exact .done hgap
  | cons c text =>
    obtain ⟨gap, hrest, hplace, hgap⟩ := skips fun d hd => hreport d (List.mem_append_left _ hd)
    dsimp only at hrest hplace hgap ⊢
    subst hplace
    obtain ⟨hsplits, hlexeme⟩ := reading_splits afterAsm (front ++ gap) c text
    generalize (if afterAsm && c == '{' then readRaw (placeBehind (front ++ gap)) text
      else readToken (placeBehind (front ++ gap)) c text) = r at hsplits hlexeme ⊢
    have htext : s.rest = gap ++ (r.lexeme ++ r.rest) := by rw [hrest, hsplits.text_eq]
    have hlength : 0 < r.lexeme.length := List.length_pos_iff.2 hlexeme
    refine .inr ⟨hsplits.kind, by rw [htext]; simp; omega, front ++ gap ++ r.lexeme, ?_, ?_, ?_⟩
    · rw [htext]
      simp
    · exact (placeBehind_append _ _).symm
    · intro more hmore
      have hahead : IsGap reported front gap ((String.ofList r.lexeme).toList ++ r.rest) := by
        simpa [← hsplits.text_eq]
      have htoken := Tiles.token (t := ⟨r.kind, String.ofList r.lexeme, r.span (placeBehind
        (front ++ gap)), r.literal⟩) hahead hsplits.kind (by simpa using hlexeme)
        (by rw [String.toList_ofList, placeBehind_append (front ++ gap)]; rfl) (by simpa using hmore)
      simpa [htext] using htoken

/-- What is reported up to the end of the next token points into the text. -/
theorem Scanner.next_isIn {s : Scanner} {front : List Char} (hhere : s.here = placeBehind front) :
    ∀ d ∈ s.next.2.1, d.IsIn (front ++ s.rest) := by
  have skips := skipGap_skips (fun _ => True) .blank s.here s.afterAsm s.rest hhere
    fun _ _ => trivial
  have herrors := skipGap_isIn .blank s.here s.afterAsm s.rest hhere trivial
  unfold Scanner.next
  generalize skipGap .blank s.here s.afterAsm s.rest = g at skips herrors ⊢
  obtain ⟨rest, here, afterAsm, errors⟩ := g
  obtain ⟨gap, hrest, hplace, -⟩ := skips
  cases rest with
  | nil => exact herrors
  | cons c text =>
    dsimp only at hrest hplace ⊢
    subst hplace
    refine List.forall_mem_append.2 ⟨herrors, ?_⟩
    rw [hrest, ← List.append_assoc]
    exact (reading_splits afterAsm (front ++ gap) c text).1.errors

/-- A scanner with fuel for every character tiles what is left of the text. -/
theorem Scanner.run_tiles (fuel : Nat) {s : Scanner} (hfuel : s.rest.length < fuel)
    {front : List Char} (hhere : s.here = placeBehind front) {reported : Diagnostic → Prop}
    (hreport : ∀ d ∈ (s.run fuel).2, reported d) : Tiles reported front s.rest (s.run fuel).1 := by
  induction fuel generalizing s front with
  | zero => exact absurd hfuel (Nat.not_lt_zero _)
  | succ fuel ih =>
    unfold Scanner.run at hreport ⊢
    dsimp only at hreport ⊢
    by_cases hkind : s.next.1.kind = .eof
    · rw [if_pos hkind] at hreport ⊢
      rcases Scanner.next_tiles hhere hreport with ⟨-, htiles⟩ | ⟨hne, -⟩
      · exact htiles
      · exact absurd hkind hne
    · rw [if_neg hkind] at hreport ⊢
      obtain ⟨hnext, hmore⟩ := List.forall_mem_append.1 hreport
      rcases Scanner.next_tiles hhere hnext with ⟨heof, -⟩ | ⟨-, hlt, front', -, hbehind, htoken⟩
      · exact absurd heof hkind
      · exact htoken _ (ih (by omega) hbehind hmore)

theorem Scanner.run_isIn (fuel : Nat) {s : Scanner} {front : List Char}
    (hhere : s.here = placeBehind front) : ∀ d ∈ (s.run fuel).2, d.IsIn (front ++ s.rest) := by
  induction fuel generalizing s front with
  | zero => exact List.forall_mem_nil _
  | succ fuel ih =>
    have herrors := Scanner.next_isIn hhere
    unfold Scanner.run
    dsimp only
    by_cases hkind : s.next.1.kind = .eof
    · rw [if_pos hkind]
      exact herrors
    · rw [if_neg hkind]
      refine List.forall_mem_append.2 ⟨herrors, ?_⟩
      rcases Scanner.next_tiles hhere fun _ _ => trivial with
        ⟨heof, -⟩ | ⟨-, -, front', htext, hbehind, -⟩
      · exact absurd heof hkind
      · rw [htext]
        exact ih hbehind

/-- The tokens of a text tile it. -/
theorem tiles_scan (source : String) : Tiles (· ∈ (scan source).2) [] source.toList (scan source).1 :=
  Scanner.run_tiles _ (s := .ofString source)
    (by rw [← String.length_toList]; exact Nat.lt_succ_self _) rfl fun _ hd => hd

/-- What is reported about a text points into it. -/
theorem isIn_scan (source : String) : ∀ d ∈ (scan source).2, d.IsIn source.toList :=
  Scanner.run_isIn _ (show (Scanner.ofString source).here = placeBehind [] from rfl)

/-- The end of a scanned text is there already. -/
theorem closeTokens_scan (source : String) :
    Grammar.closeTokens (scan source).1 = (scan source).1 := by
  obtain ⟨before, htokens, -⟩ := (tiles_scan source).exists_end
  unfold Grammar.closeTokens
  rw [htokens, List.getLast?_concat]
  rfl

/-- Scanning loses nothing: the tokens and the gaps between them make up the text, the text ends once,
every other token is the bytes between its offsets, the tokens do not overlap, and every place is
counted in lines, columns and bytes from the start of the text. -/
theorem scan_lossless (source : String) :
    Tiles (· ∈ (scan source).2) [] source.toList (scan source).1 ∧
    (∃ before, (scan source).1 = before ++ [endAt (placeBehind source.toList)] ∧
      ∀ t ∈ before, t.kind ≠ .eof ∧ t.lexeme ≠ "" ∧
        source.toUTF8.extract t.span.start.offset t.span.stop.offset = t.lexeme.toUTF8) ∧
    ((scan source).1.Pairwise fun t u => t.span.stop.offset ≤ u.span.start.offset) ∧
    (∀ t ∈ (scan source).1, t.span.IsIn source.toList) ∧
    ∀ d ∈ (scan source).2, d.IsIn source.toList := by
  have htiles := tiles_scan source
  refine ⟨htiles, ?_, htiles.pairwise, fun t ht => htiles.span_isIn ht, isIn_scan source⟩
  obtain ⟨before, htokens, hbefore⟩ := htiles.exists_end
  refine ⟨before, htokens, fun t ht => ⟨(hbefore t ht).1, (hbefore t ht).2, ?_⟩⟩
  obtain ⟨front, rest, htext, hspan⟩ := htiles.exists_split
    (t := t) (by rw [htokens]; exact List.mem_append_left _ ht)
  rw [hspan, bytes_between htext, String.ofList_toList]

end FluxFront.Token
