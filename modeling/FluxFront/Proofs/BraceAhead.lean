import FluxFront.Proofs.StmtTexts

/-!
# Telling dictionaries from blocks

Behind an opening brace a scan over the tokens ahead decides whether a dictionary or a block is read,
by a colon that belongs to nothing.  It is right about both, as far as they can be read at all.

* **Specification**: an expression that was read without an error and ends in front of a colon is the
  key of a dictionary, and braces that were read as a block without an error are none.
* **Crux**: the text of an expression is passed by the scan as if it were a single token
  (`Tidy.inline`), and that of the statements in a block either is passed or ends the scan
  (`Placid.harmless`).  The scan may see a `>>` where two brackets were read, but that makes no
  difference to it (`colonAhead_cut`).
-/

namespace FluxFront.Grammar

open Token (Kind)

/-- A first token that is not cut stays. -/
theorem Cut.of_cons {ts us : List Token} {t : Token} (h : Cut (t :: ts) us) (ht : t.kind ≠ .shr) :
    ∃ vs, us = t :: vs ∧ Cut ts vs := by
  generalize hall : t :: ts = all at h
  induction h with
  | refl => exact ⟨ts, hall.symm, .refl ts⟩
  | @cut before behind t' first second _ ht' hfirst hsecond ih =>
    obtain ⟨vs, hvs, hcut⟩ := ih
    cases before with
    | nil =>
      obtain ⟨rfl, -⟩ := List.cons.inj hvs
      exact absurd ht' ht
    | cons u before =>
      obtain ⟨rfl, rfl⟩ := List.cons.inj hvs
      exact ⟨before ++ first :: second :: behind, rfl, hcut.cut ht' hfirst hsecond⟩

/-- Whether an expression may start with the first of some tokens is the same if a `>>` is cut. -/
theorem startsExpression_cut {ts us : List Token} (h : Cut ts us)
    (hus : ∀ u ∈ us.head?, startsExpression u.kind = true) :
    ∀ t ∈ ts.head?, startsExpression t.kind = true := by
  have table : startsExpression .shr = true ∧ startsExpression .greater = true := by decide
  have hsame : (∀ t ∈ ts.head?, startsExpression t.kind = true) =
      ∀ u ∈ us.head?, startsExpression u.kind = true := by
    refine h.congr (f := fun ts => ∀ t ∈ ts.head?, startsExpression t.kind = true) ?_
    rintro (_ | ⟨u, before⟩) behind t first second ht hfirst -
    · simp [ht, hfirst, table]
    · rfl
  rwa [hsame]

/-- The key of a dictionary is passed, and then there is its colon. -/
theorem ExprText.colonAhead {b : Brackets} {e : Expr} {ts : List Token} {s : State} (h : ExprText b e ts s)
    (hcolon : s.current.kind = .colon) (last : Kind) : colonAhead 0 0 last (ts ++ s.rest) = true := by
  have hend : endKind ts ≠ .interpolatedString := fun hend => h.rested hend hcolon
  rw [h.tidy.inline]
  obtain ⟨t, rest, hrest, ht, -⟩ := State.advanced_cons (s := s) (by rw [hcolon]; decide)
  rw [hrest]
  unfold Grammar.colonAhead
  rw [ht, hcolon]
  exact if_pos ⟨rfl, hend⟩

/-- In a block no colon is found that belongs to nothing. -/
theorem Placid.colonAhead {b : Brackets} {ts : List Token} {t : Token} (h : Placid b ts)
    (ht : t.kind = .rightBrace) (last : Kind) (rest : List Token) :
    colonAhead 0 0 last (ts ++ t :: rest) = false := by
  rcases h.harmless 0 last with hend | ⟨last', hpass⟩
  · exact hend _
  · rw [hpass]
    unfold Grammar.colonAhead
    rw [ht]

section Ahead

variable {b : Brackets} {inner : Level} [TwinLevel recording inner inner] (ht : inner.Texts b) {s : State}
  (hs : s.panicking = false) (hbrace : s.current.kind = .leftBrace)
include ht hs hbrace

/-- The scan finds the colon of a key. -/
theorem dictionaryAhead_of_key (hsilent : Silent inner.expression s.advanced)
    (hcolon : (inner.expression s.advanced).2.current.kind = .colon) : dictionaryAhead s = true := by
  obtain ⟨brace, rest, hrest, hcurrent, hadvanced⟩ :=
    State.advanced_cons (s := s) (by rw [hbrace]; decide)
  have hahead : s.advanced.rest = rest := by rw [hadvanced]
  have hcalm : s.advanced.panicking = false := by rw [hadvanced]; exact hs
  obtain ⟨ts, hpass, hts⟩ := Runs.silent ht.expression hsilent hcalm
    fun _ _ _ _ _ h => h.at_cursor rfl
  have hcut := hpass.between.cut
  rw [hahead] at hcut
  have hfirst : startsExpression (s.kindAt 1) = true := by
    have hstarts := startsExpression_cut hcut fun u hu => hts.starts u (by
      rwa [head?_append_of_ne_nil hts.tidy.ne_nil] at hu)
    unfold State.kindAt
    rw [hrest]
    cases rest with
    | nil => rfl
    | cons t rest => exact hstarts t rfl
  unfold dictionaryAhead
  rw [Bool.and_eq_true, hrest, List.drop_one, List.tail_cons, colonAhead_cut hcut]
  exact ⟨hfirst, hts.colonAhead hcolon _⟩

/-- The scan finds no colon in a block. -/
theorem dictionaryAhead_of_block {context : Context} (hsilent : Silent (block inner context) s) :
    dictionaryAhead s = false := by
  obtain ⟨brace, rest, hrest, hcurrent, -⟩ := State.advanced_cons (s := s) (by rw [hbrace]; decide)
  obtain ⟨ts, hpass, o, us, c, rfl, ho, hc, hus⟩ :=
    Runs.silent (fun s => runs_block ht) hsilent hs fun _ _ _ _ _ h => h
  have hcut := hpass.between.cut
  rw [hrest, List.cons_append, List.append_assoc] at hcut
  obtain ⟨vs, hvs, hcut⟩ := hcut.of_cons (by rw [hcurrent, hbrace]; decide)
  unfold dictionaryAhead
  rw [hrest, List.drop_one, List.tail_cons, colonAhead_cut hcut, ← (List.cons.inj hvs).2,
    List.singleton_append, hus.colonAhead hc, Bool.and_false]

end Ahead

/-- The scan behind an opening brace is right about keys of dictionaries and about blocks, in every state.
A run adds no diagnostic if it reports nothing; in a collection that is full this cannot be told from what
is kept, so it is asked whatever was collected before (`Silent`). -/
theorem dictionaryAhead_correct (limit fuel : Nat) (context : Context) {s : State}
    (hs : s.panicking = false) (hbrace : s.current.kind = .leftBrace) :
    (Silent (counted limit fuel).expression s.advanced →
        ((counted limit fuel).expression s.advanced).2.current.kind = .colon →
        dictionaryAhead s = true)
      ∧ (Silent (block (counted limit fuel) context) s → dictionaryAhead s = false) := by
  -- brackets are counted where types are skimmed, and so they are by the scan
  have texts : ∀ skimming room, (grammarIn (Level.full limit) skimming room).Texts .counted :=
    fun skimming => grammarIn_texts (fun _ => rfl) limit
  have hkey := (twin_counted limit fuel s.advanced).expression
  have hlevel := twin_counted limit fuel s
  have hblock : Twin (atDepth s.depth s.skimming) (block (counted limit fuel) context)
      (block (grammarIn (Level.full limit) s.skimming (min fuel (limit - s.depth))) context) := inferInstance
  rw [hkey.silent_congr, hkey.run_eq rfl rfl, hblock.silent_congr]
  exact ⟨dictionaryAhead_of_key (texts _ _) hs hbrace, dictionaryAhead_of_block (texts _ _) hs hbrace⟩

/-- The state in front of `{a ? b : c : d}`. -/
def conditionalKey : State :=
  .ofTokens ([.leftBrace, .identifier, .question, .identifier, .colon, .identifier, .colon, .identifier,
    .rightBrace].map fun kind => { kind, lexeme := "", span := default }) none

/-- The state in front of `{{a ? b : c;}}`. -/
def nestedBlock : State :=
  .ofTokens ([.leftBrace, .leftBrace, .identifier, .question, .identifier, .colon, .identifier,
    .semicolon, .rightBrace, .rightBrace].map fun kind => { kind, lexeme := "", span := default }) none

/-- The first colon belongs to the question mark in both, and there is another one in the first only. -/
theorem dictionaryAhead_correct_conditional :
    dictionaryAhead conditionalKey = true ∧ dictionaryAhead nestedBlock = false := by
  have hkey := dictionaryAhead_correct 4 5 .topLevel (s := conditionalKey) rfl rfl
  have hblock := dictionaryAhead_correct 4 5 .topLevel (s := nestedBlock) rfl rfl
  have hsilent : Silent (counted 4 5).expression conditionalKey.advanced :=
    (reads_counted_start 4).expression.silent_congr.2 <|
      (silent_iff (fun _ => inferInstance) rfl).2 (by decide +kernel)
  have hlevel := reads_counted_start 4
  have hblocks : Twin (atDepth 0 false) (block (counted 4 5) .topLevel) (block (grammar 4 4) .topLevel) :=
    inferInstance
  have hsilent' : Silent (block (counted 4 5) .topLevel) nestedBlock :=
    hblocks.silent_congr.2 ((silent_iff (fun _ => inferInstance) rfl).2 (by decide +kernel))
  exact ⟨hkey.1 hsilent (by decide +kernel), hblock.2 hsilent'⟩

end FluxFront.Grammar
