import FluxFront.Proofs.Structural

/-!
# Errors about syntax stand in the order of the text

* **Program**: an error about syntax is recorded at the token under the cursor, and what a look-ahead
  records is dropped when it ends.  A misplaced construct is only recorded behind it, at the place where
  it starts.
* **Specification**: leaving misplaced constructs out, the errors of a parse start one behind the other
  (`parseTokens_syntaxErrors`).
* **Invariant**: every error about syntax starts at or before the cursor (`State.Chronicle`), and the
  cursor only moves on.
-/

namespace FluxFront

/-! ## Errors about syntax -/

namespace Diagnostic

/-- The error starts at or before a place. -/
def StartsBy (d : Diagnostic) (a : Location) : Prop :=
  ∃ span, d.span = some span ∧ span.start.offset ≤ a.offset

/-- Both errors have a place, and the first starts at or before the start of the second. -/
def StartsNoLater (d e : Diagnostic) : Prop := ∃ span, e.span = some span ∧ d.StartsBy span.start

theorem StartsBy.mono {d : Diagnostic} {a b : Location} (h : d.StartsBy a) (hab : a ≤ b) :
    d.StartsBy b := by
  obtain ⟨span, hspan, hle⟩ := h
  exact ⟨span, hspan, Nat.le_trans hle hab.2⟩

namespace Collection

/-- The errors that are not about misplaced constructs. -/
def syntaxErrors (c : Collection) : List Diagnostic :=
  c.errors.filter fun d => d.kind.category != .structural

variable {c : Collection} {d : Diagnostic}

theorem syntaxErrors_addError_of_structural (h : d.kind.category = .structural) :
    (c.addError d).syntaxErrors = c.syntaxErrors := by
  unfold addError syntaxErrors
  split
  · simp [h]
  · rfl

/-- An error about syntax is put behind the others, if there is room for it. -/
theorem syntaxErrors_addError (h : d.kind.category ≠ .structural) :
    (c.addError d).syntaxErrors = c.syntaxErrors ++ [d] ∨
      (c.addError d).syntaxErrors = c.syntaxErrors := by
  unfold addError syntaxErrors
  split
  · exact .inl (by simp [h])
  · exact .inr rfl

end Collection

end Diagnostic

/-! ## Along a run -/

namespace Grammar

/-- The errors about syntax stand in order, and none of them starts behind the cursor. -/
structure State.Chronicle (s : State) : Prop where
  orderly : s.Orderly
  sorted : s.errors.syntaxErrors.Pairwise Diagnostic.StartsNoLater
  passed : ∀ d ∈ s.errors.syntaxErrors, d.StartsBy s.here

namespace State.Chronicle

variable {s s' : State} {d : Diagnostic}

/-- The cursor moves on, and no error about syntax comes up. -/
theorem onward (h : s.Chronicle) (ho : Onward s s')
    (herrors : s'.errors.syntaxErrors = s.errors.syntaxErrors) : s'.Chronicle where
  orderly := ho.orderly
  sorted := herrors ▸ h.sorted
  passed d hd := (h.passed d (herrors ▸ hd)).mono ho.here_le

theorem recorded (h : s.Chronicle) (hd : d.kind.category = .structural) :
    (s.recorded d).Chronicle := by
  have ho : Onward s (s.recorded d) := by
    rw [s.recorded_eq d]
    exact onward_still h.orderly rfl rfl rfl
  refine h.onward ho ?_
  unfold State.recorded
  split
  · rfl
  · exact Diagnostic.Collection.syntaxErrors_addError_of_structural hd

/-- An error at the cursor starts behind all errors so far. -/
theorem reported (h : s.Chronicle) (hd : d.kind.category ≠ .structural)
    (hspan : d.span = some s.current.span) : (s.reported d).Chronicle := by
  have last : d.StartsBy s.here := ⟨s.current.span, hspan, Nat.le_refl _⟩
  unfold State.reported
  split
  · exact h.onward (onward_still h.orderly rfl rfl rfl) rfl
  · have ho : Onward s { s with failures := s.failures + 1, panicking := true,
                                errors := s.errors.addError d } :=
      onward_still h.orderly rfl rfl rfl
    rcases Diagnostic.Collection.syntaxErrors_addError (c := s.errors) hd with hadd | hadd
    · refine ⟨ho.orderly, ?_, ?_⟩
      · show (s.errors.addError d).syntaxErrors.Pairwise _
        rw [hadd, List.pairwise_append]
        refine ⟨h.sorted, List.pairwise_singleton _ _, fun e he => ?_⟩
        exact List.forall_mem_singleton.2 ⟨s.current.span, hspan, h.passed e he⟩
      · show ∀ e ∈ (s.errors.addError d).syntaxErrors, e.StartsBy s.here
        rw [hadd]
        exact List.forall_mem_append.2 ⟨h.passed, List.forall_mem_singleton.2 last⟩
    · exact h.onward ho hadd

end State.Chronicle

theorem Marked.chronicle {s s' : State} {ms : List Mark} (h : Marked s ms s') (hs : s.Chronicle) :
    s'.Chronicle := by
  induction h with
  | move errors _ _ _ onward => exact hs.onward (onward hs.orderly) (by rw [errors])
  | calm s => exact hs.onward (onward_still hs.orderly rfl rfl rfl) rfl
  | remark s d _ structural => exact hs.recorded structural
  | fault s d structural => exact hs.recorded structural
  | failure s d _ h span => exact hs.reported h span
  | unfilled => exact hs
  | append _ _ ih₁ ih₂ => exact ih₂ (ih₁ hs)
  | covers _ _ ih => exact ih hs

end Grammar

/-! ## Texts -/

/-- Under every config, the errors that a parse of a text returns stand in the order of the offsets
they start at, if those about misplaced constructs are left out. -/
theorem parseTokens_syntaxErrors (source : String) (config : Config) :
    (((parseTokens (Token.scan source).1 config).errors.errors.filter fun d =>
      d.kind.category != .structural).Pairwise fun d e => ∃ span span' : Span,
        d.span = some span ∧ e.span = some span' ∧ span.start.offset ≤ span'.start.offset) := by
  obtain ⟨s, hrun, herrors⟩ := Grammar.marked_parseTokens (Token.scan source).1 config
  have hstart : (Grammar.State.ofTokens (Token.scan source).1 config.maxErrors).Chronicle :=
    ⟨Grammar.orderly_scan source config.maxErrors, .nil, List.forall_mem_nil _⟩
  rw [herrors]
  refine (hrun.chronicle hstart).sorted.imp ?_
  rintro d e ⟨span', he, span, hd, hle⟩
  exact ⟨span, span', hd, he, hle⟩

/-- A statement that is misplaced as a whole is recorded behind an error inside of it. -/
example : ((parseTokens (Token.scan "if (a) \x7b b = ; \x7d").1
    { allowTopLevelStatements := false }).errors.errors.map fun d =>
      (d.kind, d.span.map fun span => span.start.offset)) =
    [(.expectedExpression, some 13), (.topLevelStatement, some 0)] := by
  decide +kernel

end FluxFront
