import FluxFront.Proofs.CountedDepth
import FluxFront.Proofs.StmtProductions

/-!
# What whole programs build

The levels are described from the bottom up.  The level that refuses everything may build a node
without reading anything, so a grammar over it is described without strictness; over a level that
never does that, the whole grammar is strict.
-/

namespace FluxFront.Grammar

variable {strict : Prop}

/-! ## Levels -/

/-- A level over a level that builds its results builds its results. -/
theorem Level.Makes.above {inner : Unit → Level} (h : (inner ()).Makes strict) :
    (Level.above inner).Makes strict where
  type := typeBody_makes h.expression h.type
  expression := expressionBody_makes h
  conditional := conditionalBody_makes h
  power := powerBody_makes h
  unary := unaryBody_makes h
  statement context := statementBody_makes h context
  items context s := .map (itemsBody_makes h context s)
  members context what s := .map (membersBody_makes h context what s)
  declaration context s := (declarationBody_makes h context s).1
  skim := steady_typeBody steady_skippedSize h.skim
  declaration_ne context s := (declarationBody_makes h context s).2

theorem grammarOver_makes {bottom : Level} (h : bottom.Makes strict) (room : Nat) :
    (grammarOver bottom room).Makes strict := by
  induction room with
  | zero => exact h
  | succ room ih => exact ih.above

/-- Refusing skips a token, unless the text has ended. -/
theorem refuse_moves (limit : Nat) (s : State) : After (refuse limit) s fun _ s' =>
    Steps s s' ∧ (s.position < s'.position ∨ s.current.kind = .eof) := by
  show Steps s (State.advanced (s.reported _)) ∧ (_ < (State.advanced (s.reported _)).position ∨ _)
  refine ⟨(reads_report _ _ _ s).trans (.advance _), ?_⟩
  by_cases hk : s.current.kind = .eof
  · exact .inr hk
  · left
    rw [State.position_advanced (by rwa [State.current, s.rest_reported]), s.position_reported]
    exact Nat.lt_succ_self _

theorem refuseNode_makes {α : Type} (limit : Nat) {build : Span → NodeId → α} {node : α → Node}
    (leaf : ∀ span id, (node (build span id)).children = [])
    (hspan : ∀ span id, (node (build span id)).span = span)
    (hid : ∀ span id, (node (build span id)).id = id) :
    Makes False (refuseNode limit build) fun a => [node a] := by
  intro s
  refine .here <| (refuse_moves limit s).andThen fun _ s₁ h₁ => .node ?_
  refine .node [] _ ?_ (hspan _ _) (hid _ _) fun _ => h₁.2.imp_right fun hk => ⟨id, hk⟩
  rw [leaf]
  exact .steps h₁.1

/-- The level without room builds placeholders. -/
theorem Level.full_makes (limit : Nat) : (Level.full limit).Makes False where
  type := refuseNode_makes limit (fun _ _ => rfl) (fun _ _ => rfl) fun _ _ => rfl
  expression := refuseNode_makes limit (fun _ _ => rfl) (fun _ _ => rfl) fun _ _ => rfl
  conditional := refuseNode_makes limit (fun _ _ => rfl) (fun _ _ => rfl) fun _ _ => rfl
  power := refuseNode_makes limit (fun _ _ => rfl) (fun _ _ => rfl) fun _ _ => rfl
  unary := refuseNode_makes limit (fun _ _ => rfl) (fun _ _ => rfl) fun _ _ => rfl
  statement _ s := by
    refine .here <| (refuse_moves limit s).andThen fun _ s₁ h₁ => .spanFrom <| .bind ?_
    refine .nodeAt <| .nodeAt <| .wrap [] _ ?_ rfl rfl rfl
    exact .node [] _ (.steps h₁.1) rfl rfl fun _ => h₁.2.imp_right fun hk => ⟨id, hk⟩
  items _ s := (refuse_moves limit s).andThen fun _ _ h => .pure (.steps h.1)
  members _ _ s := (refuse_moves limit s).andThen fun _ _ h => .pure (.steps h.1)
  declaration _ s := (refuse_moves limit s).andThen fun _ _ h => .pure (.steps h.1)
  skim := steady_refuseNode limit _
  declaration_ne _ _ := nofun

theorem grammar_makes (limit room : Nat) : (grammar limit room).Makes False :=
  grammarOver_makes (Level.full_makes limit) room

/-! ## Programs -/

theorem topLevelItem_makes (config : Config) {inner : Level} (hi : inner.Makes strict) :
    Makes strict (topLevelItem config inner) (List.flatMap fun d => [.declaration d]) := by
  intro s
  refine (declarationBody_makes hi .topLevel s).andThen fun o s₁ h₁ => ?_
  cases o with
  | some decls =>
    refine .pure ?_
    rw [← List.map_eq_flatMap]
    exact h₁.1
  | none =>
    refine (plainStatement_makes hi .topLevel s₁).andThen fun stmt s₂ h₂ => ?_
    have h : Builds strict s [.statement stmt] s₂ := h₁.1.append h₂
    refine .ite (fun _ => .bind <| .nodeAt <| .pure ?_) fun _ => ?_
    · exact .wrap [] _ h rfl rfl rfl
    · refine (reads_reportStructural _ _ _ _).andThen fun _ s₃ h₃ => .bind <| .nodeAt <| .pure ?_
      exact .wrap [] _ (h.andThen h₃) rfl rfl rfl

/-- A program builds its declarations, and its span runs from the first token to the last place that
was reached. -/
theorem programOver_makes (config : Config) {inner : Level} (hi : inner.Makes strict) (s : State) :
    After (programOver config inner) s fun p s' =>
      Builds strict s (p.declarations.map .declaration) s'
        ∧ p.span = ⟨s.here, (s'.here.max s'.lastEnd).max s.here⟩ := by
  refine .here <| ((topLevelItem_makes config hi).bodyItems.singles s).andThen
    fun declarations s₁ h₁ => ?_
  exact .get <| .pure ⟨h₁, rfl⟩

theorem leveledProgram_makes (config : Config) (s : State) :
    After (leveledProgram config) s fun p s' =>
      Builds False s (p.declarations.map .declaration) s'
        ∧ p.span = ⟨s.here, (s'.here.max s'.lastEnd).max s.here⟩ :=
  programOver_makes config (grammar_makes _ _) s

theorem programAndErrors_makes (config : Config) (tokens : List Token) (maxErrors : Option Nat) :
    After (programAndErrors config) (.ofTokens tokens maxErrors) fun r s' =>
      Builds False (.ofTokens tokens maxErrors) (r.1.declarations.map .declaration) s' := by
  have hmakes := leveledProgram_makes config (.ofTokens tokens maxErrors)
  rw [After, ← program_ofTokens] at hmakes
  exact hmakes.1.andThen (.single (.quiet rfl rfl rfl rfl))

end FluxFront.Grammar

namespace FluxFront

/-- The program of a text is the program of its tokens. -/
theorem parse_program (source : String) (config : Config) :
    (parse source config).program = (parseTokens (Token.scan source).1 config).program := by
  unfold parse
  rfl

theorem parseTokens_program (tokens : List Token) (config : Config) :
    (parseTokens tokens config).program =
      ((Grammar.programAndErrors config).run (.ofTokens tokens config.maxErrors)).1.1 := rfl

/-- What is read from tokens, seen from the run of the grammar with as much room as the limit. -/
theorem parseTokens_eq {tokens : List Token} {config : Config} {p : Program} {s : Grammar.State}
    (h : Grammar.leveledProgram config (.ofTokens tokens config.maxErrors) = (p, s)) :
    parseTokens tokens config = ⟨p, s.errors, s.events.reverse⟩ := by
  show ParseResult.mk (Grammar.program config (.ofTokens tokens config.maxErrors)).1
    (Grammar.program config (.ofTokens tokens config.maxErrors)).2.errors
    (Grammar.program config (.ofTokens tokens config.maxErrors)).2.events.reverse = _
  rw [Grammar.program_ofTokens, h]

end FluxFront
