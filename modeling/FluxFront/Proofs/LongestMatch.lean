import FluxFront.Proofs.Positions
import FluxFront.Proofs.Readings
import FluxFront.Proofs.Words

/-!
# Tokens are as long as can be

* **Program**: an operator is told by branching on its characters, a name is taken up to the first
  character that does not go on with it, and whether it is a keyword is asked of a table afterwards.
* **Specification**: no token that is spelled out could have been longer (`scan_longestMatch`): no
  spelling that the text has at an operator is longer than the operator, and no name or keyword stands
  in front of a character that goes on with a name.
* **Crux**: the branches find the first match of a table of spellings (`matchOperator_eq_some_iff`), and
  the table starts with the longest ones (`operators_sorted`), so its first match is the longest one.
-/

namespace FluxFront.Token

/-! ## Kinds of tokens -/

/-- Whether a kind is an operator or a delimiter: it has one spelling and is no keyword. -/
def Kind.isOperator (k : Kind) : Bool := k.symbol.isSome && !k.isKeyword

theorem Kind.mem_operators_iff (k : Kind) : k ∈ operators ↔ k.isOperator = true := by
  cases k <;> decide

/-- The kinds of literals. -/
def literalKinds : List Kind :=
  [.intLiteral, .floatLiteral, .charLiteral, .stringLiteral, .bitLiteral, .interpolatedString,
    .asmBlock]

/-- No operator of the table is longer than one in front of it. -/
theorem operators_sorted :
    Kind.operators.Pairwise fun a b => b.spelling.length ≤ a.spelling.length := by
  decide

/-! ## Readings -/

/-- The reading could not have been longer. -/
structure Reading.Longest (r : Reading) : Prop where
  operator : r.kind ∈ Kind.operators → ∀ (k : Kind) (spelling : String),
    k.symbol = some spelling → spelling.toList <+: r.lexeme ++ r.rest →
      spelling.toList.length ≤ r.lexeme.length
  name : r.kind = .identifier ∨ r.kind.isKeyword = true →
    ∀ c ∈ r.rest.head?, Text.continuesName c = false
  identifier : r.kind = .identifier → ∀ k : Kind, k.isKeyword = true →
    k.symbol ≠ some (String.ofList r.lexeme)

theorem Reading.Longest.of_literal {r : Reading} (h : r.kind ∈ literalKinds) : r.Longest := by
  have table : ∀ k ∈ literalKinds,
      k ∉ Kind.operators ∧ k ≠ .identifier ∧ k.isKeyword = false := by decide
  obtain ⟨hoperator, hidentifier, hkeyword⟩ := table _ h
  refine ⟨fun hk => absurd hk hoperator, ?_, fun hk => absurd hk hidentifier⟩
  rintro (hk | hk)
  · exact absurd hk hidentifier
  · exact absurd hk (by rw [hkeyword]; decide)

/-- A keyword is not spelled at a place where an operator is. -/
theorem not_prefix_of_operator {k other : Kind} (hk : k ∈ Kind.operators)
    (hother : other ∈ Kind.keywords) {rest : List Char} : ¬ other.spelling <+: k.spelling ++ rest := by
  have hname := keyword_spelling hother
  obtain ⟨d, ds, hs, hstart⟩ := Kind.spelling_of_operator hk
  rintro ⟨more, hmore⟩
  cases ho : other.spelling with
  | nil => simp [ho] at hname
  | cons c cs =>
    rw [ho, hs] at hmore
    rw [ho] at hname
    simp only [Bool.and_eq_true] at hname
    refine not_operatorStarts_of_startsName hname.1.1 ?_
    rwa [(List.cons.inj hmore).1]

theorem longest_operator {text lexeme rest : List Char} {kind : Kind}
    (h : Kind.matchOperator? text = some (kind, lexeme, rest)) :
    (⟨kind, lexeme, rest, none, []⟩ : Reading).Longest := by
  obtain ⟨rfl, htext, before, behind, hsplit, hbefore⟩ := matchOperator_eq_some_iff.1 h
  have hk : kind ∈ Kind.operators := by
    rw [hsplit]
    exact List.mem_append_right _ List.mem_cons_self
  refine ⟨fun _ other spelling hsymbol hstart => ?_, ?_, ?_⟩
  · dsimp only at hstart ⊢
    rw [← Kind.spelling_of_symbol hsymbol] at hstart ⊢
    rcases List.mem_append.1 (Kind.mem_all other) with hother | hother
    · rcases List.mem_append.1 hother with hother | hother
      · exact absurd hstart (not_prefix_of_operator hk hother)
      · have table : ∀ k ∈ Kind.classes, k.symbol = none := by decide
        exact absurd ((table other hother).symm.trans hsymbol) nofun
    -- what stands in front of the match in the table does not match
    · have hsorted := operators_sorted
      rw [hsplit] at hsorted hother
      rcases List.mem_append.1 hother with hfront | hfront
      · exact absurd (htext ▸ hstart) (hbefore other hfront)
      · rcases List.mem_cons.1 hfront with rfl | hback
        · exact Nat.le_refl _
        · exact (List.pairwise_cons.1 (List.pairwise_append.1 hsorted).2.1).1 other hback
  · have table : ∀ k ∈ Kind.operators, k ≠ .identifier ∧ k.isKeyword = false := by decide
    rintro (hidentifier | hkeyword)
    · exact absurd hidentifier (table kind hk).1
    · exact absurd hkeyword (by rw [(table kind hk).2]; decide)
  · rintro rfl
    exact absurd hk (by decide)

theorem longest_readName (c : Char) (text : List Char) : (readName c text).Longest := by
  have hkind : (readName c text).kind =
      (Kind.ofKeyword? (String.ofList (readName c text).lexeme)).getD .identifier := rfl
  refine ⟨fun hk => ?_, fun _ d hd => ?_, fun hk k hkeyword hsymbol => ?_⟩
  · rw [hkind] at hk
    cases hfound : Kind.ofKeyword? (String.ofList (readName c text).lexeme) with
    | none =>
      rw [hfound] at hk
      exact absurd hk (by decide)
    | some k =>
      rw [hfound] at hk
      have table : ∀ k ∈ Kind.keywords, k ∉ Kind.operators := by decide
      exact absurd hk (table k (Kind.mem_of_ofKeyword hfound))
  · have hnot := List.head?_dropWhile_not Text.continuesName text
    rw [show (text.dropWhile Text.continuesName).head? = some d from hd] at hnot
    exact hnot
  -- a keyword with this spelling would have been found
  · cases hfound : Kind.ofKeyword? (String.ofList (readName c text).lexeme) with
    | none =>
      have hsome := Kind.ofKeyword_of_symbol (Kind.isKeyword_iff.1 hkeyword) hsymbol
      rw [hfound] at hsome
      exact absurd hsome (by decide)
    | some k' =>
      rw [hkind, hfound, Option.getD_some] at hk
      have hmem := Kind.mem_of_ofKeyword hfound
      rw [hk] at hmem
      exact absurd hmem (by decide)

theorem longest_reading (raw : Bool) (here : Location) (c : Char) (text : List Char) :
    (reading raw here c text).Longest := by
  unfold reading
  split
  · exact .of_literal (by rw [readRaw_kind]; decide)
  · unfold readToken
    split
    · rename_i hm
      exact longest_operator hm
    · split
      · exact .of_literal (show Kind.stringLiteral ∈ literalKinds by decide)
      · split
        · refine .of_literal ?_
          unfold readChar
          dsimp only
          split <;> exact (show Kind.charLiteral ∈ literalKinds by decide)
        · split
          · have table : ∀ k ∈ [Kind.bitLiteral, .intLiteral, .floatLiteral], k ∈ literalKinds := by
              decide
            exact .of_literal (table _ (readNumber_kind _ _))
          · split
            · exact .of_literal (show Kind.interpolatedString ∈ literalKinds by decide)
            · exact longest_readName _ _

/-! ## Scans -/

/-- A token is the end of the text or was read at its place. -/
theorem Scanner.Emits.exists_reading {s : Scanner} {tokens : List Token} {errors : List Diagnostic}
    (h : s.Emits tokens errors) {front : List Char} (hs : s.here = placeBehind front) :
    ∀ t ∈ tokens, (∃ stop, t = endAt stop) ∨ ∃ raw before c text,
      front ++ s.rest = before ++ c :: text ∧
      t = (reading raw (placeBehind before) c text).token (placeBehind before) := by
  induction h generalizing front with
  | done => exact List.forall_mem_singleton.2 (.inl ⟨_, rfl⟩)
  | @token s c text here raw _ _ _ hgap _ ih =>
    obtain ⟨gap, hrest, rfl⟩ := gap_split hs hgap
    refine List.forall_mem_cons.2 ⟨.inr ⟨raw, front ++ gap, c, text, by rw [hrest]; simp, rfl⟩, ?_⟩
    have hmore := ih (placeBehind_append (front ++ gap) _).symm
    intro t ht
    rcases hmore t ht with hstop | ⟨raw', before, d, more, htext, rfl⟩
    · exact .inl hstop
    · refine .inr ⟨raw', before, d, more, ?_, rfl⟩
      rw [← htext, hrest]
      show front ++ (gap ++ c :: text) = _ ++ Reading.rest _
      rw [(reading_splits raw (front ++ gap) c text).1.text_eq]
      simp [reading]

/-- A token with a fixed spelling is spelled that way.  At the place of an operator or a delimiter the
text has no longer spelling of the table, and behind a name or a keyword it ends or goes on with a
character that is neither a letter nor a numeral nor an underscore; and no name is spelled like a
keyword. -/
theorem scan_longestMatch (source : String) : ∀ t ∈ (scan source).1,
    (∀ spelling, t.kind.symbol = some spelling → t.lexeme = spelling) ∧
    ∃ before rest, source.toList = before ++ (t.lexeme.toList ++ rest) ∧
      t.span = ⟨placeBehind before, placeBehind (before ++ t.lexeme.toList)⟩ ∧
      (t.kind.isOperator = true → ∀ (k : Kind) (spelling : String),
        k.symbol = some spelling → spelling.toList <+: t.lexeme.toList ++ rest →
          spelling.length ≤ t.lexeme.length) ∧
      (t.kind = .identifier ∨ t.kind.isKeyword = true → ∀ c ∈ rest.head?,
        Text.isLetter c = false ∧ Text.isNumeral c = false ∧ c ≠ '_') ∧
      (t.kind = .identifier → ∀ k : Kind, k.isKeyword = true → k.symbol ≠ some t.lexeme) := by
  intro t ht
  refine ⟨spelled_scan source t ht, ?_⟩
  rcases (emits_scan source).exists_reading (show _ = placeBehind [] from rfl) t ht with
    ⟨stop, rfl⟩ | ⟨raw, before, c, text, htext, rfl⟩
  -- the end of the text is none of all this
  · obtain ⟨before, rest, htext, hspan⟩ := (tiles_scan source).exists_split ht
    refine ⟨before, rest, htext, hspan, nofun, ?_, nofun⟩
    rintro (h | h)
    · exact absurd h nofun
    · exact absurd h nofun
  · have hsplits : (reading raw (placeBehind before) c text).Splits before (c :: text) :=
      (reading_splits raw before c text).1
    have hlongest := longest_reading raw (placeBehind before) c text
    generalize reading raw (placeBehind before) c text = r at hsplits hlongest
    have hlexeme : (r.token (placeBehind before)).lexeme.toList = r.lexeme := String.toList_ofList
    refine ⟨before, r.rest, ?_, ?_, ?_, ?_, hlongest.identifier⟩
    · rw [hlexeme, ← hsplits.text_eq, ← htext]
      rfl
    · rw [hlexeme, placeBehind_append before]
      rfl
    · intro hk k spelling hsymbol
      rw [← String.length_toList, ← String.length_toList, hlexeme]
      exact hlongest.operator ((Kind.mem_operators_iff _).2 hk) k spelling hsymbol
    · intro hk d hd
      have hno := hlongest.name hk d hd
      simpa [Text.continuesName, and_assoc] using hno

/-- Of the three operators that `**=` starts with, the longest is read. -/
theorem scan_longestMatch_power :
    (⟨.starStarEqual, "**=", ⟨⟨1, 2, 1⟩, ⟨1, 5, 4⟩⟩, none⟩ : Token) ∈ (scan "a**=b").1 ∧
    ∃ before rest, "a**=b".toList = before ++ ("**=".toList ++ rest) ∧
      (⟨⟨1, 2, 1⟩, ⟨1, 5, 4⟩⟩ : Span) = ⟨placeBehind before, placeBehind (before ++ "**=".toList)⟩ ∧
      ∀ (k : Kind) (spelling : String), k.symbol = some spelling →
        spelling.toList <+: "**=".toList ++ rest → spelling.length ≤ 3 := by
  have hmem : (⟨.starStarEqual, "**=", ⟨⟨1, 2, 1⟩, ⟨1, 5, 4⟩⟩, none⟩ : Token) ∈
      (scan "a**=b").1 := by decide +kernel
  obtain ⟨-, before, rest, htext, hspan, hoperator, -⟩ := scan_longestMatch "a**=b" _ hmem
  exact ⟨hmem, before, rest, htext, hspan, hoperator (by decide)⟩

end FluxFront.Token
