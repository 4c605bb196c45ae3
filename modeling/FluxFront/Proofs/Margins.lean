import FluxFront.Proofs.Lossless

/-!
# Spans at the end of a text that is nested too deeply

Where there is no room for a node, a token is skipped in its stead.  At the end of the text there is
none to skip: the placeholder stands behind the blanks and comments there, and its parents, which end
where the last token does, do not reach it.

* **Finding**: under a limit of one level, the operand that is missing in `- ` stands outside of the
  unary expression (`parse_operand_outside`).
* **Specification**: nothing else goes wrong.  Under every limit, a span outside of its parent's is
  the empty one at the end of the text, and the parent reaches the end of every token
  (`parse_spans_nested_before_end`).
-/

namespace FluxFront

/-! ## The end of a scanned text -/

/-- In front of a scanned text, the end of each token is ahead, and the text ends where its characters
do. -/
theorem Grammar.closes_scan (source : String) (maxErrors : Option Nat) {last : Location}
    (hlast : last = default ∨ ∃ t ∈ (Token.scan source).1, t.kind ≠ .eof ∧ last = t.span.stop) :
    Margin.Closes ⟨False, last, placeBehind source.toList⟩
      (.ofTokens (Token.scan source).1 maxErrors) := by
  obtain ⟨before, htokens, hbefore⟩ := (Token.tiles_scan source).exists_end
  have hrest : closeTokens (Token.scan source).1
      = before ++ [Token.endAt (placeBehind source.toList)] := by
    rw [Token.closeTokens_scan, htokens]
    rfl
  refine ⟨before, hrest, fun t ht => (hbefore t ht).1, ?_⟩
  rcases hlast with rfl | ⟨t, ht, hk, rfl⟩
  · exact .inl (Location.default_le _)
  · rw [htokens, List.mem_append, List.mem_singleton] at ht
    rcases ht with ht | rfl
    · exact .inr ⟨t, ht, Location.le_refl _⟩
    · exact absurd rfl hk

/-- Under every limit, what is outside of its parent is the empty span at the end of the text, and the
parent reaches whatever lies before it. -/
theorem violation_at_end {source : String} {config : Config} {outer inner : Span}
    (hv : (parse source config).program.spanViolation? = some (outer, inner)) {last : Location}
    (hlast : last = default ∨ ∃ t ∈ (Token.scan source).1, t.kind ≠ .eof ∧ last = t.span.stop) :
    inner = .single (placeBehind source.toList) ∧ outer.start ≤ inner.start ∧ last ≤ outer.stop ∧
      outer.contains inner = false := by
  rw [parse_program, parseTokens_eq rfl] at hv
  have hplaced := Grammar.programOver_placed (m := ⟨False, last, placeBehind source.toList⟩) config
    (Grammar.grammar_makes config.maxNestingDepth config.maxNestingDepth)
    (Grammar.orderly_scan source config.maxErrors)
    fun _ => Grammar.closes_scan source config.maxErrors hlast
  obtain ⟨hsits, hout⟩ := Program.spanViolation?_inside hplaced hv
  rcases hsits with hwithin | ⟨-, rfl, hstart, hreach⟩
  · rw [hwithin.contains] at hout
    exact absurd hout (by decide)
  · exact ⟨rfl, hstart, hreach, hout⟩

/-! ## Texts under every limit -/

/-- Under every limit of nesting, a span that is not inside its parent's is the empty one at the end of
the text, and the parent, which ends before it, reaches the end of every token. -/
theorem parse_spans_nested_before_end (source : String) (config : Config) :
    (parse source config).program.spanViolation? = none ∨ ∃ outer : Span,
      (parse source config).program.spanViolation? =
        some (outer, .single (placeBehind source.toList)) ∧
      outer.stop.offset < source.utf8ByteSize ∧
      ∀ t ∈ (Token.scan source).1, t.kind ≠ .eof → t.span.stop ≤ outer.stop := by
  cases hv : (parse source config).program.spanViolation? with
  | none => exact .inl rfl
  | some v =>
    obtain ⟨outer, inner⟩ := v
    obtain ⟨rfl, hstart, -, hout⟩ := violation_at_end hv (.inl rfl)
    refine .inr ⟨outer, rfl, ?_, fun t ht hk => (violation_at_end hv (.inr ⟨t, ht, hk, rfl⟩)).2.2.1⟩
    have hend : (placeBehind source.toList).offset = source.utf8ByteSize := by
      rw [placeBehind, String.ofList_toList]
    -- containing is by offsets, and the parent starts early enough
    rw [Span.contains, Bool.and_eq_false_iff, decide_eq_false_iff_not, decide_eq_false_iff_not] at hout
    have hstop := hout.resolve_left fun hlt => hlt hstart.2
    rw [← hend]
    exact Nat.lt_of_not_le hstop

/-- The operand that there is no room for stands behind the blank, and the expression does not reach
it. -/
theorem parse_operand_outside :
    (parse "- " { maxNestingDepth := 1 }).program.spanViolation? =
        some (⟨⟨1, 1, 0⟩, ⟨1, 2, 1⟩⟩, .single ⟨1, 3, 2⟩) ∧
      (parse "- " { maxNestingDepth := 1 }).errors.errors.map Diagnostic.kind = [.nestingTooDeep] := by
  decide +kernel

end FluxFront
