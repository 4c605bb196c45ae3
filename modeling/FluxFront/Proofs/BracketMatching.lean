import FluxFront.Proofs.DeclTexts
import FluxFront.Proofs.ExprLossless
import FluxFront.Proofs.Limits
import FluxFront.Proofs.Progress

/-!
# Brackets in accepted texts

In a text that is parsed without any diagnostic the brackets match, unless an operator is declared whose
symbol is a bracket: a symbol is taken to be whatever token stands in front of the closing bracket.

* **Specification**: `stillOpen` goes over tokens with a stack of the brackets that are open, and
  `BracketsMatch` asks that it never fails and ends with an empty stack.
* **Result**: in an accepted text brackets match if and only if no symbol of an operator is a bracket
  (`parse_bracketsMatch_iff`).
* **Crux**: what a clean run read is nested, or it is *spoilt* by a symbol: then it fails on every stack or
  leaves more brackets on it than there were (`Bracketed.nested_or_spoilt`).
-/

namespace FluxFront

namespace Grammar

open Token (Kind)

/-! ## A stack of open brackets -/

/-- The brackets that would close what is open behind the tokens, innermost first, given those in front of
them; nothing if a bracket among the tokens closes what is not the innermost. -/
def stillOpen : List Kind → List Token → Option (List Kind)
  | waiting, [] => some waiting
  | waiting, t :: rest =>
    match closing? t.kind with
    | some close => stillOpen (close :: waiting) rest
    | none =>
      if t.kind ∈ closings then
        match waiting with
        | [] => none
        | close :: outer => if t.kind = close then stillOpen outer rest else none
      else stillOpen waiting rest

/-- Every bracket is closed by its like, the innermost first, and no other bracket closes anything. -/
def BracketsMatch (ts : List Token) : Prop := stillOpen [] ts = some []

instance (ts : List Token) : Decidable (BracketsMatch ts) := inferInstanceAs (Decidable (_ = _))

section

variable {waiting : List Kind} {rest : List Token}

theorem stillOpen_other {t : Token} (h : t.kind ∉ openings ++ closings) :
    stillOpen waiting (t :: rest) = stillOpen waiting rest := by
  rw [List.mem_append, not_or] at h
  have hopen : closing? t.kind = none := by
    unfold closing?
    split <;> simp_all [openings]
  conv => lhs; unfold stillOpen
  rw [hopen]
  exact if_neg h.2

theorem stillOpen_opening {o c : Token} (h : closing? o.kind = some c.kind) :
    stillOpen waiting (o :: rest) = stillOpen (c.kind :: waiting) rest := by
  conv => lhs; unfold stillOpen
  rw [h]

theorem stillOpen_closing {o c : Token} (h : closing? o.kind = some c.kind) {close : Kind} :
    stillOpen (close :: waiting) (c :: rest) = if c.kind = close then stillOpen waiting rest else none := by
  have hclose : closing? c.kind = none ∧ c.kind ∈ closings := by
    rcases closing?_cases h with ⟨-, hc⟩ | ⟨-, hc⟩ | ⟨-, hc⟩ <;> rw [hc] <;> decide
  conv => lhs; unfold stillOpen
  rw [hclose.1]
  exact if_pos hclose.2

end

theorem not_mem_of_isInner {k : Kind} (h : isInner k = true) : k ∉ openings ++ closings := by
  unfold isInner at h
  simp_all

/-- A nested text leaves the stack as it was. -/
theorem Nested.stillOpen_eq {ts : List Token} (h : Nested .paired ts) (waiting : List Kind)
    (rest : List Token) : stillOpen waiting (ts ++ rest) = stillOpen waiting rest := by
  induction h generalizing waiting rest with
  | nil => rfl
  | single ht => exact stillOpen_other (not_mem_of_isInner ht)
  | @group o c ts hoc _ ih =>
    rw [List.cons_append, stillOpen_opening hoc, List.append_assoc, ih, List.singleton_append,
      stillOpen_closing hoc, if_pos rfl]
  | counted hb => exact nomatch hb
  | append _ _ iht ihu => rw [List.append_assoc, iht, ihu]

/-- A stack cannot tell a `>>` from two `>`. -/
theorem stillOpen_cut {ts us : List Token} (h : Cut ts us) (waiting : List Kind) :
    stillOpen waiting ts = stillOpen waiting us := by
  refine congrFun (h.congr (f := fun ts waiting => stillOpen waiting ts) ?_) waiting
  intro before behind t first second ht hfirst hsecond
  funext waiting
  induction before generalizing waiting with
  | nil =>
    have other : ∀ {u : Token}, u.kind = .shr ∨ u.kind = .greater → u.kind ∉ openings ++ closings := by
      rintro u (hu | hu) <;> rw [hu] <;> decide
    rw [List.nil_append, List.nil_append, stillOpen_other (other (.inl ht)),
      stillOpen_other (other (.inr hfirst)), stillOpen_other (other (.inr hsecond))]
  | cons u before ih =>
    rw [List.cons_append, List.cons_append]
    unfold stillOpen
    simp only [ih]

/-- Brackets do not end a text. -/
theorem kind_ne_eof_group {o c : Token} {ts : List Token} (hoc : closing? o.kind = some c.kind)
    (h : ∀ t ∈ ts, t.kind ≠ .eof) : ∀ t ∈ o :: (ts ++ [c]), t.kind ≠ .eof := by
  rw [List.forall_mem_cons, List.forall_mem_append, List.forall_mem_singleton]
  rcases closing?_cases hoc with ⟨ho, hc⟩ | ⟨ho, hc⟩ | ⟨ho, hc⟩
  all_goals
    rw [ho, hc]
    exact ⟨by decide, h, by decide⟩

theorem Nested.kind_ne_eof {ts : List Token} (h : Nested .paired ts) : ∀ t ∈ ts, t.kind ≠ .eof := by
  induction h with
  | nil => exact List.forall_mem_nil _
  | single ht =>
    rw [List.forall_mem_singleton]
    intro hk
    rw [hk] at ht
    exact absurd ht (by decide)
  | group hoc _ ih => exact kind_ne_eof_group hoc ih
  | counted hb => exact nomatch hb
  | append _ _ iht ihu => exact List.forall_mem_append.2 ⟨iht, ihu⟩

/-- Tokens with brackets that match but for symbols have no end of a text among them. -/
theorem Bracketed.kind_ne_eof {symbols : List String} {ts : List Token} (h : Bracketed symbols ts) :
    ∀ t ∈ ts, t.kind ≠ .eof := by
  induction h with
  | nested h => exact h.kind_ne_eof
  | group hoc _ ih => exact kind_ne_eof_group hoc ih
  | append _ _ iht ihu => exact List.forall_mem_append.2 ⟨iht, ihu⟩
  | symbol ho ht hne hc => simp [ho, hne, hc]

/-! ## Symbols that spoil a text -/

/-- The spellings of brackets. -/
def bracketTexts : List String := ["(", ")", "[", "]", "\x7b", "\x7d"]

/-- A token is spelled like a bracket just if it is one. -/
def SpelledApart (t : Token) : Prop := t.lexeme ∈ bracketTexts ↔ t.kind ∈ openings ++ closings

/-- On every stack the tokens fail or leave more square brackets on it than there were. -/
def Spoilt (ts : List Token) : Prop :=
  ∀ waiting rest, stillOpen waiting (ts ++ rest) = none ∨
    ∃ n, stillOpen waiting (ts ++ rest) =
      stillOpen (List.replicate (n + 1) .rightBracket ++ waiting) rest

namespace Spoilt

variable {ts us : List Token}

theorem group {o c : Token} (hoc : closing? o.kind = some c.kind) (h : Spoilt ts) :
    Spoilt (o :: (ts ++ [c])) := by
  intro waiting rest
  rw [List.cons_append, stillOpen_opening hoc, List.append_assoc, List.singleton_append]
  rcases h (c.kind :: waiting) (c :: rest) with hnone | ⟨n, hmore⟩
  · exact .inl hnone
  · rw [hmore, List.replicate_succ, List.cons_append, stillOpen_closing hoc]
    split
    case isTrue hc =>
      right
      refine ⟨n, ?_⟩
      rw [hc, List.replicate_succ', List.append_assoc]
      rfl
    case isFalse => exact .inl rfl

theorem before (h : Spoilt ts) (hu : Nested .paired us ∨ Spoilt us) : Spoilt (ts ++ us) := by
  intro waiting rest
  rw [List.append_assoc]
  rcases h waiting (us ++ rest) with hnone | ⟨n, hmore⟩
  · exact .inl hnone
  · rw [hmore]
    rcases hu with hu | hu
    · exact .inr ⟨n, hu.stillOpen_eq _ _⟩
    · rcases hu (List.replicate (n + 1) .rightBracket ++ waiting) rest with hnone | ⟨m, hmore'⟩
      · exact .inl hnone
      · right
        refine ⟨m + 1 + n, ?_⟩
        rw [hmore', ← List.append_assoc, List.replicate_append_replicate]
        rfl

theorem behind (ht : Nested .paired ts) (h : Spoilt us) : Spoilt (ts ++ us) := by
  intro waiting rest
  rw [List.append_assoc, ht.stillOpen_eq]
  exact h waiting rest

/-- A bracket between square brackets, unless it is the closing one. -/
theorem symbol {o t c : Token} (ho : o.kind = .leftBracket) (ht : t.kind ∈ openings ++ closings)
    (hne : t.kind ≠ .rightBracket) (hc : c.kind = .rightBracket) : Spoilt [o, t, c] := by
  intro waiting rest
  have table : ∀ k ∈ openings ++ closings, k ≠ .rightBracket →
      k = .leftBracket ∨ k = .leftParen ∨ k = .leftBrace ∨ k = .rightParen ∨ k = .rightBrace := by decide
  simp only [List.cons_append, List.nil_append]
  rcases table _ ht hne with hk | hk | hk | hk | hk
  · exact .inr ⟨0, by simp [stillOpen, ho, hk, hc, closing?, closings]⟩
  all_goals exact .inl (by simp [stillOpen, ho, hk, hc, closing?, closings])

end Spoilt

/-- A text with brackets that match but for symbols has brackets that match, or is spoilt by a symbol. -/
theorem Bracketed.nested_or_spoilt {symbols : List String} {ts : List Token} (h : Bracketed symbols ts)
    (hts : ∀ t ∈ ts, SpelledApart t) :
    Nested .paired ts ∧ (∀ symbol ∈ symbols, symbol ∉ bracketTexts) ∨
      Spoilt ts ∧ ¬ ∀ symbol ∈ symbols, symbol ∉ bracketTexts := by
  induction h with
  | nested h => exact .inl ⟨h, List.forall_mem_nil _⟩
  | group hoc _ ih =>
    rcases ih fun t ht => hts t (by simp [ht]) with ⟨h, hplain⟩ | ⟨h, hbracket⟩
    · exact .inl ⟨.group hoc h, hplain⟩
    · exact .inr ⟨.group hoc h, hbracket⟩
  | append _ _ iht ihu =>
    rw [List.forall_mem_append]
    rcases iht fun t ht => hts t (by simp [ht]) with ⟨ht, hplain⟩ | ⟨ht, hbracket⟩
    · rcases ihu fun t ht => hts t (by simp [ht]) with ⟨hu, hplain'⟩ | ⟨hu, hbracket⟩
      · exact .inl ⟨.append ht hu, hplain, hplain'⟩
      · exact .inr ⟨.behind ht hu, fun h => hbracket h.2⟩
    · refine .inr ⟨.before ht ?_, fun h => hbracket h.1⟩
      exact (ihu fun t ht => hts t (by simp [ht])).imp And.left And.left
  | @symbol o t c ho ht hne hc =>
    have hspelled : t.lexeme ∈ bracketTexts ↔ t.kind ∈ openings ++ closings := hts t (by simp)
    rw [List.forall_mem_singleton, hspelled]
    by_cases hk : t.kind ∈ openings ++ closings
    · exact .inr ⟨.symbol ho hk ht hc, not_not_intro hk⟩
    · have hinner : isInner t.kind = true := by
        unfold isInner
        simp_all
      have hoc : closing? o.kind = some c.kind := by
        rw [ho, hc]
        rfl
      exact .inl ⟨.group hoc (.single hinner), hk⟩

/-! ## The tokens of a run -/

/-- What holds of all tokens in a state and of halves of a `>>` holds of all tokens in later states. -/
theorem Moves.forall_tokens {P : Token → Prop} (hhalf : ∀ span, P { kind := .greater, lexeme := ">", span })
    {s s' : State} (h : Moves True s s') (hs : ∀ t ∈ s.behind ++ s.rest, P t) :
    ∀ t ∈ s'.behind ++ s'.rest, P t := by
  induction h with
  | refl => exact hs
  | @tail s₁ f _ last ih =>
    cases last with
    | advance =>
      by_cases hk : s₁.current.kind = .eof
      · rwa [State.advanced_eof hk]
      · obtain ⟨t, rest, hrest, -, hadv⟩ := State.advanced_cons hk
        rw [hrest] at ih
        rw [hadv]
        intro u hu
        simp only [List.mem_append, List.mem_cons] at hu ih
        rcases hu with (rfl | hu) | hu
        · exact ih u (.inr (.inl rfl))
        · exact ih u (.inl hu)
        · exact ih u (.inr (.inr hu))
    | split =>
      unfold State.splitShift
      split
      · rename_i t rest hrest
        rw [hrest] at ih
        split
        · intro u hu
          simp only [List.mem_append, List.mem_cons] at hu ih
          rcases hu with hu | rfl | rfl | hu
          · exact ih u (.inl hu)
          · exact hhalf _
          · exact hhalf _
          · exact ih u (.inr (.inr hu))
        · rwa [hrest]
      · exact ih
    | reach => exact ih
    | restamp => exact ih
    | report d =>
      unfold State.reported
      split <;> exact ih
    | record d =>
      unfold State.recorded
      split <;> exact ih
    | note => exact ih
    | calm => exact ih

/-- The end of a text stays behind whatever is cut in it. -/
theorem Cut.concat_eof {ts us : List Token} {e : Token} (h : Cut (ts ++ [e]) us) (he : e.kind = .eof) :
    ∃ vs, us = vs ++ [e] ∧ Cut ts vs := by
  induction h with
  | refl => exact ⟨ts, rfl, .refl ts⟩
  | @cut before behind t first second _ ht hfirst hsecond ih =>
    obtain ⟨vs, hvs, hcut⟩ := ih
    rcases List.eq_nil_or_concat behind with rfl | ⟨more, x, rfl⟩
    · -- the end of the text is no `>>`
      obtain ⟨-, hlast⟩ := List.append_inj' hvs rfl
      rw [(List.cons.inj hlast).1, he] at ht
      exact absurd ht (by decide)
    · rw [List.concat_eq_append, ← List.cons_append, ← List.append_assoc] at hvs
      obtain ⟨rfl, hlast⟩ := List.append_inj' hvs rfl
      obtain rfl := (List.cons.inj hlast).1
      exact ⟨before ++ first :: second :: more, by simp, hcut.cut ht hfirst hsecond⟩

end Grammar

namespace Token

/-- A token starts with the character at which it was read. -/
theorem readToken_head (here : Location) (c : Char) (text : List Char) :
    ∃ more, (readToken here c text).lexeme = c :: more := by
  have decimal : c.isDigit = true → ∃ more, (readDecimal here (c :: text)).lexeme = c :: more := by
    intro hc
    have hwhole : (c :: text).takeWhile isDigitOrMark = c :: text.takeWhile isDigitOrMark := by
      rw [List.takeWhile_cons_of_pos]
      rw [isDigitOrMark, hc]
      rfl
    unfold readDecimal
    dsimp only
    rw [hwhole]
    split <;> exact ⟨_, rfl⟩
  unfold readToken
  split
  · rename_i hm
    have hsplits : Reading.Splits [] (c :: text) _ := splits_operator hm
    have hsplit := hsplits.text_eq
    obtain ⟨d, more, hlexeme⟩ := List.exists_cons_of_ne_nil (filled_operator hm).lexeme
    rw [hlexeme] at hsplit
    obtain ⟨rfl, -⟩ := List.cons.inj hsplit
    exact ⟨more, hlexeme⟩
  · split
    · rename_i hc
      exact ⟨_, by rw [hc]; rfl⟩
    · split
      · rename_i hc
        subst hc
        unfold readChar
        dsimp only
        split <;> exact ⟨_, rfl⟩
      · split
        · rename_i hc
          unfold readNumber
          split
          · rename_i htext
            obtain ⟨rfl, rfl⟩ := List.cons.inj htext
            split
            · unfold readRadix
              dsimp only
              split <;> exact ⟨_, rfl⟩
            · exact decimal hc
          · exact decimal hc
        · split <;> exact ⟨_, rfl⟩

/-- What is spelled like a bracket was read as one. -/
theorem readToken_bracket {here : Location} {c : Char} {text : List Char} {k : Kind}
    (hk : k ∈ Grammar.openings ++ Grammar.closings) (h : (readToken here c text).lexeme = k.spelling) :
    (readToken here c text).kind = k := by
  have table : ∀ k ∈ Grammar.openings ++ Grammar.closings, k ∈ Kind.operators ∧ k.isFinal = true ∧
      k.spelling.length = 1 := by decide
  obtain ⟨hoperator, hfinal, hlength⟩ := table k hk
  obtain ⟨more, hmore⟩ := readToken_head here c text
  have hc : k.spelling = [c] := by
    rw [← h, hmore, List.length_cons, Nat.add_eq_right, List.length_eq_zero_iff] at hlength
    rw [← h, hmore, hlength]
  have hmatch : Kind.matchOperator? (k.spelling ++ text) = some (k, k.spelling, text) :=
    matchOperator_spelling hoperator fun c _ _ => clears_of_isFinal hfinal c
  rw [hc] at hmatch
  unfold readToken
  rw [show c :: text = [c] ++ text from rfl, hmatch]

/-- A block of raw text that is closed is no single brace. -/
theorem readRaw_length {here : Location} {text : List Char} (h : (readRaw here text).errors = []) :
    1 < (readRaw here text).lexeme.length := by
  unfold readRaw at h ⊢
  dsimp only at h ⊢
  split at h
  · exact absurd h (List.cons_ne_nil _ _)
  · simp

/-- What holds of every next token about which nothing is reported holds of all tokens if nothing is. -/
theorem Scanner.forall_run_clean {P : Token → Prop} (hnext : ∀ s : Scanner, s.next.2.1 = [] → P s.next.1)
    (fuel : Nat) {s : Scanner} (h : (s.run fuel).2 = []) : ∀ t ∈ (s.run fuel).1, P t := by
  induction fuel generalizing s with
  | zero => exact List.forall_mem_nil _
  | succ fuel ih =>
    unfold Scanner.run at h ⊢
    dsimp only at h ⊢
    split at h
    · rename_i hk
      rw [if_pos hk]
      exact List.forall_mem_singleton.2 (hnext s h)
    · rename_i hk
      rw [if_neg hk]
      obtain ⟨hfirst, hmore⟩ := List.append_eq_nil_iff.1 h
      exact List.forall_mem_cons.2 ⟨hnext s hfirst, ih hmore⟩

/-- A reading about which nothing is reported gives a token that is spelled apart from brackets unless it is
one. -/
theorem spelledApart_reading (raw : Bool) (here : Location) (c : Char) (text : List Char) {r : Reading}
    (hr : (if raw then readRaw here text else readToken here c text) = r) (h : r.errors = []) (span : Span) :
    Grammar.SpelledApart ⟨r.kind, String.ofList r.lexeme, span, r.literal⟩ := by
  constructor
  · intro hlexeme
    have texts : ∀ x ∈ Grammar.bracketTexts, ∃ k ∈ Grammar.openings ++ Grammar.closings,
        x.toList = k.spelling ∧ k.spelling.length = 1 := by decide
    obtain ⟨k, hk, hspelling, hlength⟩ := texts _ hlexeme
    rw [String.toList_ofList] at hspelling
    cases raw with
    | false =>
      have hkind : r.kind = k := by
        rw [← hr] at hspelling ⊢
        exact readToken_bracket hk hspelling
      show r.kind ∈ _
      rwa [hkind]
    | true =>
      have hlong : 1 < r.lexeme.length := by
        rw [← hr] at h ⊢
        exact readRaw_length h
      rw [hspelling, hlength] at hlong
      exact absurd hlong (Nat.lt_irrefl 1)
  · intro hkind
    have kinds : ∀ k ∈ Grammar.openings ++ Grammar.closings, ∃ x ∈ Grammar.bracketTexts, k.symbol = some x := by
      decide
    obtain ⟨x, hx, hsymbol⟩ := kinds r.kind hkind
    have hlexeme : r.lexeme = x.toList := by
      rw [← hr] at hsymbol ⊢
      exact spelled_reading _ _ _ _ x hsymbol
    show String.ofList r.lexeme ∈ _
    rwa [hlexeme, String.ofList_toList]

theorem Scanner.spelledApart_next (s : Scanner) (h : s.next.2.1 = []) : Grammar.SpelledApart s.next.1 := by
  unfold Scanner.next at h ⊢
  dsimp only at h ⊢
  split at h
  · show "" ∈ Grammar.bracketTexts ↔ Kind.eof ∈ Grammar.openings ++ Grammar.closings
    decide
  · exact spelledApart_reading _ _ _ _ rfl (List.append_eq_nil_iff.1 h).2 _

/-- Brackets are spelled apart from other tokens in a text without lexical errors. -/
theorem spelledApart_scan {source : String} (h : (scan source).2 = []) :
    ∀ t ∈ (scan source).1, Grammar.SpelledApart t :=
  Scanner.forall_run_clean Scanner.spelledApart_next _ h

end Token

/-! ## Programs -/

open Grammar

/-- What a parse without errors has read lies in front of the end of the text. -/
theorem parseTokens_bracketed (tokens : List Token) {config : Config} (hlimit : config.maxErrors = none)
    (h : (parseTokens tokens config).errors.errors = []) :
    ∃ ts s, Passes (.ofTokens tokens config.maxErrors) ts s ∧ s.current.kind = .eof ∧
      Bracketed (parseTokens tokens config).program.symbols ts := by
  let s₀ := State.ofTokens tokens config.maxErrors
  let s := (leveledProgram config s₀).2
  have hi := grammar_steady config.maxNestingDepth config.maxNestingDepth
  have hparse : parseTokens tokens config = ⟨(leveledProgram config s₀).1, s.errors, s.events.reverse⟩ :=
    parseTokens_eq rfl
  rw [hparse] at h ⊢
  have hclean : Clean s₀ s := by
    have hmoves : Moves True s₀ s := (steady_programOver hi config).moves s₀
    obtain ⟨more, hmore⟩ := hmoves.since.errors
    rw [hmore] at h
    obtain rfl : more = [] := (List.append_eq_nil_iff.1 h).2
    exact ⟨rfl, hlimit, hmore⟩
  obtain ⟨ts, hpass, hts⟩ := runs_programOver (grammar_declTexts _ _) (grammar_texts _ _) hi config hclean
  exact ⟨ts, s, hpass, programOver_ends config hi (State.ofTokens_ample tokens config.maxErrors), hts⟩

/-- What was read up to the end of a text is all of it in front of the end, but for shifts that were cut. -/
theorem Grammar.Passes.cut_scan {source : String} {limit : Option Nat} {ts : List Token} {s : State}
    (hpass : Passes (.ofTokens (Token.scan source).1 limit) ts s) (hend : s.current.kind = .eof)
    (hts : ∀ t ∈ ts, t.kind ≠ .eof) :
    ∃ before e, (Token.scan source).1 = before ++ [e] ∧ e.kind = .eof ∧ Cut before ts := by
  obtain ⟨before, htokens, hbefore⟩ := (Token.tiles_scan source).exists_end
  refine ⟨before, _, htokens, rfl, ?_⟩
  have hcut : Cut (Token.scan source).1 (ts ++ s.rest) := by
    have hclose : (State.ofTokens (Token.scan source).1 limit).rest = (Token.scan source).1 :=
      Token.closeTokens_scan source
    have hcut := hpass.between.cut
    rwa [hclose] at hcut
  rw [htokens] at hcut
  obtain ⟨vs, hvs, hcut⟩ := hcut.concat_eof rfl
  cases hrest : s.rest with
  | nil =>
    rw [hrest, List.append_nil] at hvs
    exact absurd rfl (hts _ (by rw [hvs]; exact List.mem_append_right _ List.mem_cons_self))
  | cons x more =>
    have hx : x.kind = .eof := by simpa [State.current, hrest] using hend
    rw [hrest] at hvs
    rcases List.eq_nil_or_concat more with rfl | ⟨more, y, rfl⟩
    · rwa [(List.append_inj' hvs rfl).1]
    · -- nothing ends the text in front of its end
      rw [List.concat_eq_append, ← List.cons_append, ← List.append_assoc] at hvs
      have hmem : x ∈ vs := by
        rw [← (List.append_inj' hvs rfl).1]
        exact List.mem_append_right _ List.mem_cons_self
      rcases hcut.mem x hmem with hmem | hk
      · exact absurd hx (hbefore x hmem).1
      · rw [hx] at hk
        exact absurd hk (by decide)

/-- **Brackets match in accepted texts**, unless an operator is declared that has a bracket as its symbol. -/
theorem parse_bracketsMatch_iff (source : String) (config : Config) (hlimit : config.maxErrors ≠ some 0)
    (h : (parse source config).errors.errors = []) :
    BracketsMatch (Token.scan source).1 ↔
      ∀ symbol ∈ (parse source config).program.symbols, symbol ∉ bracketTexts := by
  obtain ⟨hlexical, hparsed⟩ := List.append_eq_nil_iff.1 (recordedErrors_eq_nil hlimit h)
  rw [parse_program, parseTokens_program_unlimited]
  obtain ⟨ts, s, hpass, hend, hts⟩ := parseTokens_bracketed _ rfl hparsed
  obtain ⟨before, e, htokens, he, hcut⟩ := hpass.cut_scan hend hts.kind_ne_eof
  have hapart : ∀ t ∈ ts, SpelledApart t := by
    have hhalf : ∀ span, SpelledApart { kind := .greater, lexeme := ">", span } := fun _ =>
      (by decide : ">" ∈ bracketTexts ↔ Token.Kind.greater ∈ openings ++ closings)
    have hstart : ∀ t ∈ closeTokens (Token.scan source).1, SpelledApart t := by
      rw [Token.closeTokens_scan]
      exact Token.spelledApart_scan hlexical
    intro t ht
    apply hpass.moves.forall_tokens hhalf hstart
    rw [hpass.behind]
    simp [ht]
  have hother : e.kind ∉ openings ++ closings := by
    rw [he]
    decide
  have hopen : stillOpen [] (Token.scan source).1 = stillOpen [] (ts ++ [e]) := by
    rw [htokens, stillOpen_cut (hcut.append [e])]
  unfold BracketsMatch
  rw [hopen]
  rcases hts.nested_or_spoilt hapart with ⟨hnested, hplain⟩ | ⟨hspoilt, hbracket⟩
  · refine iff_of_true ?_ hplain
    rw [hnested.stillOpen_eq, stillOpen_other hother]
    rfl
  · refine iff_of_false ?_ hbracket
    rcases hspoilt [] [e] with hnone | ⟨n, hmore⟩
    · rw [hnone]
      exact (Option.some_ne_none _).symm
    · rw [hmore, stillOpen_other hother, List.append_nil]
      exact fun h => List.cons_ne_nil _ _ (Option.some.inj h)

/-- A program with brackets of every kind, between which a `+` is declared. -/
theorem parse_bracketsMatch_plus :
    BracketsMatch (Token.scan "operator(T a)[+] -> T \x7b return (a[1]); \x7d").1 :=
  (parse_bracketsMatch_iff "operator(T a)[+] -> T \x7b return (a[1]); \x7d" {} (by decide)
    (by decide +kernel)).2 (by decide +kernel)

/-- A parenthesis that nothing closes is accepted as a symbol. -/
theorem parse_bracketsMatch_symbol :
    (parse "operator()[(] -> T \x7b \x7d" {}).errors.errors = [] ∧
      ¬ BracketsMatch (Token.scan "operator()[(] -> T \x7b \x7d").1 := by
  decide +kernel

end FluxFront
