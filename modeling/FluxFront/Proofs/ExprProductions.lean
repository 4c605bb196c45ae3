import FluxFront.Proofs.TypeProductions

/-!
# What expressions build

The productions of expressions from primaries to assignments.  A production that goes on with an
expression it was given, such as a call chain, builds from the place where that expression started.
-/

namespace FluxFront.Grammar

open Token (Kind)

variable {strict : Prop} {inner : Level}

/-! ## Primaries -/

theorem arguments_makes (hi : inner.Makes strict) (close : Kind) :
    Makes strict (arguments inner close) (List.map .expression) :=
  hi.expression.commaTerminated.singles

theorem literal_makes {s : State} (hk : s.current.kind ≠ .eof) :
    After literal s fun e s' => Builds strict s [.expression e] s' :=
  .here <| .advance <| .node <| .read _ (.idle _) hk rfl rfl

theorem groupOrCast_makes (hi : inner.Makes strict) {s : State} (hk : s.current.kind ≠ .eof) :
    After (groupOrCast inner) s fun e s' => Builds strict s [.expression e] s' := by
  refine .here <| .unmoved ((probe_castAhead hi.skim).state_eq s) fun b => ?_
  cases b with
  | true =>
    refine .position <| .advance <| (hi.type _).andThen fun target s₁ h₁ => ?_
    refine (reads_consume _ _ _).andThen fun _ s₂ h₂ => ?_
    refine (reads_noteCommitted _ _ _).andThen fun _ s₃ h₃ => ?_
    refine (hi.unary _).andThen fun operand s₄ h₄ => .node ?_
    exact .read _ ((h₁.andThen (h₂.trans h₃)).append h₄) hk rfl rfl
  | false =>
    refine .advance <| (hi.expression _).andThen fun expr s₁ h₁ => ?_
    refine (reads_consume _ _ _).andThen fun _ s₂ h₂ => .node ?_
    exact .read _ (h₁.andThen h₂) hk rfl rfl

theorem sizeOfExpr_makes (hi : inner.Makes strict) {s : State} (hk : s.current.kind ≠ .eof) :
    After (sizeOfExpr inner) s fun e s' => Builds strict s [.expression e] s' := by
  refine .here <| .advance <| (reads_consume _ _ _).andThen fun _ s₁ h₁ => ?_
  refine (hi.type _).andThen fun type s₂ h₂ => ?_
  refine (reads_consume _ _ _).andThen fun _ s₃ h₃ => .node ?_
  exact .read _ ((h₂.andThen h₃).behind h₁) hk rfl rfl

theorem typeOfExpr_makes (hi : inner.Makes strict) {s : State} (hk : s.current.kind ≠ .eof) :
    After (typeOfExpr inner) s fun e s' => Builds strict s [.expression e] s' := by
  refine .here <| .advance <| (reads_consume _ _ _).andThen fun _ s₁ h₁ => ?_
  refine (hi.expression _).andThen fun expr s₂ h₂ => ?_
  refine (reads_consume _ _ _).andThen fun _ s₃ h₃ => .node ?_
  exact .read _ ((h₂.andThen h₃).behind h₁) hk rfl rfl

theorem opExpr_makes (hi : inner.Makes strict) {s : State} (hk : s.current.kind ≠ .eof) :
    After (opExpr inner) s fun e s' => Builds strict s [.expression e] s' := by
  refine .here <| .advance <| (reads_consume _ _ _).andThen fun _ s₁ h₁ => ?_
  refine (hi.unary _).andThen fun left s₂ h₂ => .kind ?_
  have close : ∀ operator s₃, Steps s₂ s₃ →
      After (do
        let right ← inner.unary
        consumeClosingAngle "Expected '>' to close 'op' expression"
        node (Expr.mk (.opCall left operator right)) s.here) s₃
        fun e s' => Builds strict s [.expression e] s' := by
    intro operator s₃ h₃
    refine (hi.unary _).andThen fun right s₄ h₄ => ?_
    refine (reads_consumeClosingAngle _ _).andThen fun _ s₅ h₅ => .node ?_
    exact .read _ (((h₂.andThen h₃).append (h₄.andThen h₅)).behind h₁) hk rfl rfl
  refine .ite (fun _ => ?_) fun _ => ?_
  · exact .advance <| close _ _ (.advance _)
  · exact (reads_reportUnexpected _ _).andThen fun _ s₃ h₃ => close _ s₃ h₃

theorem interpolatedValues_makes (hi : inner.Makes strict) :
    Makes strict (interpolatedValues inner) (List.map .expression) := by
  intro s
  refine (After.iterate (I := fun st s' => Builds strict s (st.1.map .expression) s')
    (fun st s₁ h₁ => ?_) (.idle s)).andThen fun st s' h => .pure h
  obtain ⟨values, stalled⟩ := st
  have value : After (do
      let before ← position
      let value ← inner.expression
      consume .semicolon "Expected ';' after interpolated value"
      return some (values ++ [value], (← position) == before) : Parser _) s₁
      fun o s' => Builds strict s ((o.getD (values, stalled)).1.map .expression) s' := by
    refine .position <| (hi.expression _).andThen fun value s₂ h₂ => ?_
    refine (reads_consume _ _ _).andThen fun _ s₃ h₃ => .position <| .pure ?_
    simpa using h₁.append (h₂.andThen h₃)
  cases stalled with
  | true => exact .pure h₁
  | false =>
    refine .checkOrEnd fun b => ?_
    cases b
    · exact value
    · exact .pure h₁

theorem interpolatedString_makes (hi : inner.Makes strict) {s : State}
    (hk : s.current.kind ≠ .eof) :
    After (interpolatedString inner) s fun e s' => Builds strict s [.expression e] s' := by
  refine .here <| .advance ?_
  have close : ∀ values s₁, Builds strict s.advanced (values.map .expression) s₁ →
      After (do
        let expr ← node (Expr.mk (.interpolated (partsOf s.current) values)) s.here
        let slots := (partsOf s.current).length - 1
        if slots != values.length then
          reportStructural .interpolationMismatch
            ("Interpolated string has " ++ toString slots ++ " placeholder(s) but "
              ++ toString values.length ++ " value(s)") expr.span
        return expr) s₁ fun e s' => Builds strict s [.expression e] s' := by
    intro values s₁ h₁
    refine .bind <| .node ?_
    have h := Builds.read (.expression ⟨.interpolated (partsOf s.current) values,
      s₁.spanFrom s.here, s₁.nextId⟩) h₁ hk rfl rfl
    refine .ite (fun _ => ?_) fun _ => .pure h
    exact (reads_reportStructural _ _ _ _).andThen fun _ s₂ h₂ => .pure (h.andThen h₂)
  have values : After (do
      consume .colon "Expected ':' after interpolated string"
      consume .leftBrace "Expected '\x7b' before interpolated values"
      let values ← interpolatedValues inner
      consume .rightBrace "Expected '\x7d' after interpolated values"
      pure values) s.advanced
      fun values s' => Builds strict s.advanced (values.map .expression) s' := by
    refine (reads_consume _ _ _).andThen fun _ s₁ h₁ => ?_
    refine (reads_consume _ _ _).andThen fun _ s₂ h₂ => ?_
    refine (interpolatedValues_makes hi _).andThen fun values s₃ h₃ => ?_
    exact (reads_consume _ _ _).andThen fun _ s₄ h₄ => .pure ((h₃.andThen h₄).behind (h₁.trans h₂))
  have either : ∀ b : Bool, After (if (b || 1 < (partsOf s.current).length) = true then _ else _)
      s.advanced fun e s' => Builds strict s [.expression e] s' := fun b =>
    .ite (fun _ => values.andThen close) fun _ => close [] _ (.idle _)
  exact .check (fun _ => either true) fun _ => either false

theorem arrayExpr_makes (hi : inner.Makes strict) {s : State} (hk : s.current.kind ≠ .eof) :
    After (arrayExpr inner) s fun e s' => Builds strict s [.expression e] s' := by
  refine .here <| .advance <| (arguments_makes hi _ _).andThen fun elements s₁ h₁ => ?_
  refine (reads_consume _ _ _).andThen fun _ s₂ h₂ => .node ?_
  exact .read _ (h₁.andThen h₂) hk rfl rfl

theorem dictionaryEntry_makes (hi : inner.Makes strict) :
    Makes strict (dictionaryEntry inner) fun e => [.expression e.key, .expression e.value] := by
  intro s
  refine (hi.expression s).andThen fun key s₁ h₁ => ?_
  refine (reads_consume _ _ _).andThen fun _ s₂ h₂ => ?_
  exact (hi.expression _).andThen fun value s₃ h₃ => .pure ((h₁.andThen h₂).append h₃)

theorem braceExpr_makes (hi : inner.Makes strict) {s : State} (hk : s.current.kind = .leftBrace) :
    After (braceExpr inner) s fun e s' => Builds strict s [.expression e] s' := by
  have hne : s.current.kind ≠ .eof := by rw [hk]; decide
  refine .here <| .kindAt <| .ite (fun _ => ?_) fun _ => .get <| .ite (fun _ => ?_) fun _ => ?_
  · exact .advance <| .advance <| .node <| .read _ (.steps (.advance _)) hne rfl rfl
  · refine .advance <| (dictionaryEntry_makes hi _).andThen fun first s₁ h₁ => ?_
    have next : Makes strict
        (do
          if ← accept .comma then
            if ← check .rightBrace then return none else return some (← dictionaryEntry inner)
          else return none : Parser (Option Entry))
        fun o => o.toList.flatMap fun e => [.expression e.key, .expression e.value] := by
      intro s
      refine .accept (fun _ => ?_) fun _ => .pure (Builds.idle s)
      refine .check (fun _ => .pure (.steps (.advance s))) fun _ => ?_
      refine (dictionaryEntry_makes hi _).andThen fun e s₁ h₁ => .pure ?_
      exact h₁.behind (.advance s)
    refine (next.many s₁).andThen fun more s₂ h₂ => ?_
    refine (reads_consume _ _ _).andThen fun _ s₃ h₃ => .node ?_
    exact .read _ (h₁.append (h₂.andThen h₃)) hne rfl rfl
  · refine (block_builds hi _ s).andThen fun body s₁ h₁ => .node ?_
    cases h₁ with
    | read h span moved => exact .node [] _ h rfl rfl fun _ => .inl moved
    | missing _ _ _ _ _ hk' => exact absurd hk hk'

theorem missingExpr_makes : Makes strict missingExpr fun e => [.expression e] := by
  intro s
  refine .current <| (reads_report _ _ _ s).andThen fun _ s₁ h₁ => ?_
  exact .emptySpan <| .nodeAt <| .behind h₁ <| .missing _ rfl rfl rfl

theorem primary_makes (hi : inner.Makes strict) :
    Makes strict (primary inner) fun e => [.expression e] := by
  intro s
  refine .kind ?_
  split
  case h_1 hk | h_2 hk | h_3 hk | h_4 hk | h_5 hk | h_6 hk | h_7 hk =>
    exact literal_makes (by rw [hk]; decide)
  case h_8 hk =>
    exact .here <| .advance <| .node <| .read _ (.idle _) (by rw [hk]; decide) rfl rfl
  case h_9 hk => exact groupOrCast_makes hi (by rw [hk]; decide)
  case h_10 hk => exact sizeOfExpr_makes hi (by rw [hk]; decide)
  case h_11 hk => exact typeOfExpr_makes hi (by rw [hk]; decide)
  case h_12 hk => exact opExpr_makes hi (by rw [hk]; decide)
  case h_13 hk => exact interpolatedString_makes hi (by rw [hk]; decide)
  case h_14 hk => exact arrayExpr_makes hi (by rw [hk]; decide)
  case h_15 hk => exact braceExpr_makes hi hk
  case h_16 => exact missingExpr_makes s

/-! ## Operators -/

theorem chained_makes (hi : inner.Makes strict) {s s₀ : State} {expr : Expr}
    (h : Builds strict s₀ [.expression expr] s) :
    After (chained? inner s₀.here expr) s fun o s' =>
      Builds strict s₀ [.expression (o.getD expr)] s' := by
  refine .kind ?_
  split
  · refine .advance <| (arguments_makes hi _ _).andThen fun args s₁ h₁ => ?_
    refine (reads_consume _ _ _).andThen fun _ s₂ h₂ => .bind <| .node <| .pure ?_
    exact .around _ ((h.andThen (.advance s)).append (h₁.andThen h₂)) rfl rfl
      (by simp [Node.children, Node.ofExpr])
  · refine .advance <| .kind ?_
    have close : ∀ name s₁, Steps s.advanced s₁ →
        After (do return some (← node (Expr.mk (.member expr name)) s₀.here) : Parser _) s₁
          fun o s' => Builds strict s₀ [.expression (o.getD expr)] s' := by
      intro name s₁ h₁
      refine .bind <| .node <| .pure ?_
      exact .around _ (h.andThen ((Steps.advance s).trans h₁)) rfl rfl
        (by simp [Node.children, Node.ofExpr])
    refine .ite (fun _ => .advance <| close _ _ (.advance _)) fun _ => ?_
    exact (reads_reportUnexpected _ _).andThen fun _ s₁ h₁ => close _ s₁ h₁
  · refine .advance <| (hi.expression _).andThen fun index s₁ h₁ => ?_
    refine (reads_consume _ _ _).andThen fun _ s₂ h₂ => .bind <| .node <| .pure ?_
    exact .around _ ((h.andThen (.advance s)).append (h₁.andThen h₂)) rfl rfl
      (by simp [Node.children, Node.ofExpr])
  · exact .pure h

theorem callChain_makes (hi : inner.Makes strict) :
    Makes strict (callChain inner) fun e => [.expression e] := by
  intro s
  refine .here <| (primary_makes hi s).andThen fun expr s₁ h₁ => ?_
  exact .iterate (fun _ _ h => chained_makes hi h) h₁

theorem trailing_makes (hi : inner.Makes strict) :
    Makes strict (trailing inner) fun e => [.expression e] := by
  intro s
  refine .here <| (callChain_makes hi s).andThen fun expr s₁ h₁ => ?_
  refine .iterate (I := fun e s' => Builds strict s [.expression e] s') (fun expr s₂ h₂ => ?_) h₁
  refine .kind ?_
  split
  · refine .advance <| .bind <| .node <| .pure ?_
    exact .around _ (h₂.andThen (.advance _)) rfl rfl (by simp [Node.children, Node.ofExpr])
  · exact .pure h₂

theorem unaryBody_makes (hi : inner.Makes strict) :
    Makes strict (unaryBody inner) fun e => [.expression e] := by
  intro s
  refine .here <| .kind <| .ite (fun _ => ?_) fun _ => ?_
  · refine .advance <| (hi.unary _).andThen fun operand s₁ h₁ => .bind <| .node <| .node ?_
    have once := Builds.around (.expression ⟨.unary .deref operand .before, s₁.spanFrom s.here,
      s₁.nextId⟩) (h₁.behind (.advance s)) rfl rfl (by simp [Node.children, Node.ofExpr])
    exact .around _ once rfl rfl (by simp [Node.children, Node.ofExpr])
  · split
    · refine .advance <| (hi.unary _).andThen fun operand s₁ h₁ => .node ?_
      exact .around _ (h₁.behind (.advance s)) rfl rfl (by simp [Node.children, Node.ofExpr])
    · exact trailing_makes hi s

theorem powerBody_makes (hi : inner.Makes strict) :
    Makes strict (powerBody inner) fun e => [.expression e] := by
  intro s
  refine .here <| (unaryBody_makes hi s).andThen fun base s₁ h₁ => ?_
  refine .accept (fun _ => ?_) fun _ => .pure h₁
  refine (hi.power _).andThen fun exponent s₂ h₂ => .node ?_
  exact .around _ ((h₁.andThen (.advance _)).append h₂) rfl rfl (by simp [Node.children, Node.ofExpr])

theorem leftAssociative_makes {operand : Parser Expr}
    (ho : Makes strict operand fun e => [.expression e]) (operators : List Kind) :
    Makes strict (leftAssociative operators operand) fun e => [.expression e] := by
  intro s
  refine .here <| (ho s).andThen fun first s₁ h₁ => ?_
  refine .iterate (I := fun e s' => Builds strict s [.expression e] s') (fun left s₂ h₂ => ?_) h₁
  refine .kind ?_
  split
  · refine .advance <| (ho _).andThen fun right s₃ h₃ => .bind <| .node <| .pure ?_
    exact .around _ ((h₂.andThen (.advance _)).append h₃) rfl rfl
      (by simp [Node.children, Node.ofExpr])
  · exact .pure h₂

theorem binaryBody_makes (hi : inner.Makes strict) :
    Makes strict (binaryBody inner) fun e => [.expression e] := by
  unfold binaryBody
  induction operatorLevels with
  | nil => exact powerBody_makes hi
  | cons operators tighter ih => exact leftAssociative_makes ih operators

theorem conditionalBody_makes (hi : inner.Makes strict) :
    Makes strict (conditionalBody inner) fun e => [.expression e] := by
  intro s
  refine .here <| (binaryBody_makes hi s).andThen fun condition s₁ h₁ => ?_
  refine .accept (fun _ => ?_) fun _ => .pure h₁
  refine (hi.expression _).andThen fun thenValue s₂ h₂ => ?_
  refine (reads_consume _ _ _).andThen fun _ s₃ h₃ => ?_
  refine (hi.conditional _).andThen fun elseValue s₄ h₄ => .node ?_
  have h := (h₁.andThen (.advance _)).append ((h₂.andThen h₃).append h₄)
  exact .around _ h rfl rfl (by simp [Node.children, Node.ofExpr])

theorem expressionBody_makes (hi : inner.Makes strict) :
    Makes strict (expressionBody inner) fun e => [.expression e] := by
  intro s
  refine .here <| (conditionalBody_makes hi s).andThen fun target s₁ h₁ => .kind ?_
  split
  · exact .pure h₁
  · rename_i op _
    have close : ∀ s₂, Steps s₁ s₂ →
        After (do
          let value ← inner.expression
          node (Expr.mk (.assign op target value)) s.here) s₂
          fun e s' => Builds strict s [.expression e] s' := by
      intro s₂ h₂
      refine (hi.expression _).andThen fun value s₃ h₃ => .node ?_
      exact .around _ ((h₁.andThen h₂).append h₃) rfl rfl (by simp [Node.children, Node.ofExpr])
    refine .advance <| .ite (fun _ => close _ (.advance _)) fun _ => ?_
    refine (reads_reportStructural _ _ _ _).andThen fun _ s₂ h₂ => ?_
    exact close s₂ ((Steps.advance s₁).trans h₂)

end FluxFront.Grammar
