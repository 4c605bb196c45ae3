import FluxFront.Proofs.Steadiness

/-!
# The grammar is steady

Every production is steady if the entries of the level below it are, and so, from the bottom up, is
every level of the grammar and the reading of whole programs.

The body of a loop is shown to be a round where it stands: in front of a token other than the end of
the text it reads that token before anything else, or it is an item of a body, and what an item leaves
unread, recovery skips.
-/

namespace FluxFront.Grammar

open Token (Kind)

variable {α : Type} {noted : Prop}

/-- Every entry of a level is steady, and the one that skims over types notes nothing. -/
structure Level.Steady (l : Level) : Prop where
  type : Grammar.Steady True l.type
  skim : Grammar.Steady False l.skim
  expression : Grammar.Steady True l.expression
  conditional : Grammar.Steady True l.conditional
  power : Grammar.Steady True l.power
  unary : Grammar.Steady True l.unary
  statement (context : Context) : Grammar.Steady True (l.statement context)
  items (context : Context) : Grammar.Steady True (l.items context)
  members (context : Context) (what : String) : Grammar.Steady True (l.members context what)
  declaration (context : Context) : Grammar.Steady True (l.declaration context)

/-! ## Bodies -/

/-- An item that reads nothing costs a token, so a body gets on with every item. -/
theorem recoverAfterItem_moves (s : State) (before : Nat) (hle : before ≤ s.position)
    (hk : s.position = before → s.current.kind ≠ .eof) :
    After (recoverAfterItem before) s fun _ s' => before < s'.position := by
  have skip : After synchronize (s.noted (.stuck s.current)).advanced fun _ s' =>
      s.position < s'.position ∨ s.current.kind = .eof := by
    by_cases he : s.current.kind = .eof
    · exact .inr he
    · exact .inl (steady_synchronize.moved (s := s.noted (.stuck s.current)) he)
  have quiet : Steady True (do if (← get).panicking then synchronize) :=
    .get (fun _ _ => rfl) fun s => .ite steady_synchronize (.pure _)
  have hpos := (quiet.forward s).position
  refine .position <| After.check (k := .eof) (fun he => ?_) fun hne => ?_
  · refine .ite (fun hb => absurd hb (by simp)) fun _ => ?_
    show before < ((do if (← get).panicking then synchronize : Parser Unit) s).2.position
    have hlt : s.position ≠ before := fun hp => hk hp he
    omega
  · refine .ite (fun hb => ?_) fun hb => ?_
    · have hp : s.position = before := by simpa using hb
      refine .current (.andThen (Q := fun _ s' => s' = s.noted (.stuck s.current)) rfl ?_)
      rintro _ _ rfl
      refine .advance (skip.mono fun _ s' h => ?_)
      rw [← hp]
      exact h.resolve_right hne
    · have hp : s.position ≠ before := by simpa using hb
      show before < ((do if (← get).panicking then synchronize : Parser Unit) s).2.position
      omega

theorem After.checkOrEnd_cases {β : Type} {s : State} {R : β → State → Prop} {k : Kind}
    {q : Bool → Parser β} (yes : s.current.kind = k ∨ s.current.kind = .eof → After (q true) s R)
    (no : s.current.kind ≠ k → s.current.kind ≠ .eof → After (q false) s R) :
    After (Grammar.checkOrEnd k >>= q) s R := by
  show After (q ([k, .eof].contains s.current.kind)) s R
  by_cases h : s.current.kind = k ∨ s.current.kind = .eof
  · have hb : [k, .eof].contains s.current.kind = true := by simpa using h
    rw [hb]
    exact yes h
  · have hb : [k, .eof].contains s.current.kind = false := by simpa using h
    rw [hb]
    exact no (fun hk => h (.inl hk)) fun hk => h (.inr hk)

/-- One round of a body loop: in front of the closing token or at the end of the text it gives nothing
and leaves everything as it is, and otherwise it moves the cursor on. -/
def BodyRound (close : Kind) (p : Parser (Option α)) : Prop :=
  ∀ s, After p s fun o s' =>
    (o = none ∧ s' = s ∧ (s.current.kind = close ∨ s.current.kind = .eof))
      ∨ (o.isSome ∧ s.position < s'.position)

theorem BodyRound.round {close : Kind} {p : Parser (Option α)} (h : BodyRound close p)
    (hp : Steady True p) : Round True p := by
  refine ⟨hp, fun s => (h s).mono fun o s' ho hsome => ?_⟩
  rcases ho with ⟨rfl, _⟩ | ⟨_, hlt⟩
  · exact absurd hsome Bool.false_ne_true
  · exact hlt

/-- A round that reads something at the cursor and recovers gets on. -/
theorem recovered_moves {item : Parser α} (h : Steady True item) {β : Type} (f : α → β) {s : State}
    (hk : s.current.kind ≠ .eof) :
    After (do
      let items ← item
      recoverAfterItem s.position
      return some (f items) : Parser (Option β)) s fun o s' => o.isSome ∧ s.position < s'.position := by
  refine (h.after s).andThen fun items s₁ h₁ => ?_
  refine (recoverAfterItem_moves s₁ s.position h₁.position ?_).andThen fun _ s₂ h₂ => ?_
  · intro hp he
    exact hk ((h₁.atEnd hp).1 he)
  · exact .pure ⟨rfl, h₂⟩

theorem bodyRound_gets_on {item : Parser (List α)} (h : Steady True item) (close : Kind) :
    BodyRound close (bodyRound close item) := by
  intro s
  refine .checkOrEnd_cases (fun he => .pure (.inl ⟨rfl, rfl, he⟩)) fun _ hne => ?_
  refine .accept (fun hk => .pure (.inr ⟨rfl, ?_⟩)) fun _ => .position ?_
  · rw [State.position_advanced hne]
    exact Nat.lt_succ_self _
  · exact (recovered_moves h id hne).mono fun _ _ h => .inr h

theorem steady_bodyRound {item : Parser (List α)} (h : Steady True item) (close : Kind) :
    Steady True (bodyRound close item) := by
  refine (steady_checkOrEnd _).bind fun _ => .ite (.pure _) ?_
  refine (steady_accept _).bind fun _ => .ite (.pure _) (steady_position.bind fun _ => ?_)
  exact h.bind fun _ => (steady_recoverAfterItem _).bind fun _ => .pure _

theorem steady_bodyItems {item : Parser (List α)} (h : Steady True item) (close : Kind) :
    Steady True (bodyItems close item) := by
  have round := (bodyRound_gets_on h close).round (steady_bodyRound h close)
  exact (Steady.many round).bind fun _ => .pure _

section

variable {inner : Level} (hi : inner.Steady)
include hi

theorem steady_block (context : Context) : Steady True (block inner context) := by
  refine steady_here.bind fun _ => (steady_accept _).bind fun _ => .ite ?_ ?_
  · refine (hi.items context).bind fun o => ?_
    cases o with
    | none => exact (steady_spanFrom _).bind fun _ => .pure _
    | some statements =>
      exact (steady_consume _ _).bind fun _ => (steady_spanFrom _).bind fun _ => .pure _
  · exact (steady_reportUnexpected _).bind fun _ => steady_emptySpan.bind fun _ => .pure _

end

theorem steady_asmBody : Steady noted asmBody := by
  refine steady_advance.bind fun _ => steady_kind.bind fun k => ?_
  split
  · exact steady_advance.bind fun _ => (steady_accept _).bind fun _ => .pure _
  · exact steady_advance.bind fun _ => (steady_expectSemicolon _).bind fun _ => .pure _
  · exact (steady_reportUnexpected _).bind fun _ => .pure _

/-! ## Expressions -/

section Expressions

variable {inner : Level} (hi : inner.Steady)

theorem steady_literal : Steady noted literal :=
  steady_here.bind fun _ => steady_advance.bind fun _ => steady_node _ _

theorem steady_missingExpr : Steady noted missingExpr :=
  steady_current.bind fun _ => (steady_report _ _ _).bind fun _ =>
    steady_emptySpan.bind fun _ => steady_nodeAt _ _

include hi

theorem steady_arguments (close : Kind) : Steady True (arguments inner close) :=
  hi.expression.commaTerminated close

theorem steady_groupOrCast : Steady True (groupOrCast inner) := by
  refine steady_here.bind fun _ => (probe_castAhead hi.skim).steady.bind fun _ => .ite ?_ ?_
  · refine steady_position.bind fun _ => steady_advance.bind fun _ => hi.type.bind fun _ => ?_
    refine (steady_consume _ _).bind fun _ => (steady_noteCommitted _ _).bind fun _ => ?_
    exact hi.unary.bind fun _ => steady_node _ _
  · refine steady_advance.bind fun _ => hi.expression.bind fun _ => ?_
    exact (steady_consume _ _).bind fun _ => steady_node _ _

theorem steady_sizeOfExpr : Steady True (sizeOfExpr inner) := by
  refine steady_here.bind fun _ => steady_advance.bind fun _ => (steady_consume _ _).bind fun _ => ?_
  exact hi.type.bind fun _ => (steady_consume _ _).bind fun _ => steady_node _ _

theorem steady_typeOfExpr : Steady True (typeOfExpr inner) := by
  refine steady_here.bind fun _ => steady_advance.bind fun _ => (steady_consume _ _).bind fun _ => ?_
  exact hi.expression.bind fun _ => (steady_consume _ _).bind fun _ => steady_node _ _

theorem steady_opExpr : Steady True (opExpr inner) := by
  refine steady_here.bind fun start => steady_advance.bind fun _ => ?_
  refine (steady_consume _ _).bind fun _ => hi.unary.bind fun left => steady_kind.bind fun _ => ?_
  have close : ∀ operator, Steady True (do
      let right ← inner.unary
      consumeClosingAngle "Expected '>' to close 'op' expression"
      node (Expr.mk (.opCall left operator right)) start) := fun _ =>
    hi.unary.bind fun _ => (steady_consumeClosingAngle _).bind fun _ => steady_node _ _
  refine .ite (steady_advance.bind fun _ => close _) ?_
  exact (steady_reportUnexpected _).bind fun _ => close _

theorem steady_interpolatedValues : Steady True (interpolatedValues inner) := by
  have value : ∀ before (values : List Expr), Steady True (do
      let value ← inner.expression
      consume .semicolon "Expected ';' after interpolated value"
      return some (values ++ [value], (← position) == before)) := fun _ _ =>
    hi.expression.bind fun _ => (steady_consume _ _).bind fun _ =>
      steady_position.bind fun _ => .pure _
  -- a value that reads nothing ends the loop in the next round, so it counts once only
  refine Steady.bind (.iterateRanked (fun state => if state.2 then 0 else 1) ?_ ?_ ?_ _)
    fun _ => .pure _
  · intro state
    split <;> omega
  · intro state
    refine (steady_checkOrEnd _).bind fun _ => .ite (.pure _) ?_
    exact steady_position.bind fun _ => value _ _
  · intro state s
    refine .checkOrEnd fun b => .ite (fun _ => .pure nofun) fun hb => .position ?_
    have hstalled : state.2 = false := by
      rw [Bool.or_eq_true, not_or, Bool.not_eq_true] at hb
      exact hb.1
    refine (hi.expression.after s).andThen fun value s₁ h₁ => ?_
    refine ((@steady_consume True _ _).after s₁).andThen fun _ s₂ h₂ => .position <| .pure ?_
    intro next hnext
    obtain rfl := Option.some.inj hnext
    have hf := h₁.trans h₂
    have hpos := hf.position
    have htotal := hf.total
    by_cases hp : s₂.position = s.position
    · rw [hp, beq_self_eq_true, hstalled, if_pos rfl, if_neg Bool.false_ne_true]
      omega
    · rw [beq_eq_false_iff_ne.2 hp, hstalled, if_neg Bool.false_ne_true]
      omega

theorem steady_interpolatedString : Steady True (interpolatedString inner) := by
  refine steady_here.bind fun start => steady_advance.bind fun token => ?_
  have close : ∀ values, Steady True (do
      let expr ← node (Expr.mk (.interpolated (partsOf token) values)) start
      let slots := (partsOf token).length - 1
      if slots != values.length then
        reportStructural .interpolationMismatch
          ("Interpolated string has " ++ toString slots ++ " placeholder(s) but "
            ++ toString values.length ++ " value(s)") expr.span
      return expr) := fun values =>
    (steady_node _ _).bind fun _ =>
      .ite ((steady_reportStructural _ _ _).bind fun _ => .pure _) (.pure _)
  refine (steady_check _).bind fun _ => .ite ?_ (close [])
  refine (steady_consume _ _).bind fun _ => (steady_consume _ _).bind fun _ => ?_
  refine (steady_interpolatedValues hi).bind fun _ => ?_
  exact (steady_consume _ _).bind fun _ => close _

theorem steady_arrayExpr : Steady True (arrayExpr inner) := by
  refine steady_here.bind fun _ => steady_advance.bind fun _ => ?_
  refine (steady_arguments hi _).bind fun _ => ?_
  exact (steady_consume _ _).bind fun _ => steady_node _ _

theorem steady_dictionaryEntry : Steady True (dictionaryEntry inner) :=
  hi.expression.bind fun _ => (steady_consume _ _).bind fun _ => hi.expression.bind fun _ => .pure _

theorem steady_braceExpr : Steady True (braceExpr inner) := by
  refine steady_here.bind fun _ => (steady_kindAt _).bind fun _ => .ite ?_ ?_
  · exact steady_advance.bind fun _ => steady_advance.bind fun _ => steady_node _ _
  · refine .get (fun _ _ => rfl) fun s => .ite ?_ ?_
    · have more : Steady True (do
          if ← check .rightBrace then return none else return some (← dictionaryEntry inner)) :=
        (steady_check _).bind fun _ =>
          .ite (.pure _) ((steady_dictionaryEntry hi).bind fun _ => .pure _)
      refine steady_advance.bind fun _ => (steady_dictionaryEntry hi).bind fun _ => ?_
      refine (Steady.many (.accept (k := .comma) nofun more)).bind fun _ => ?_
      exact (steady_consume _ _).bind fun _ => steady_node _ _
    · exact (steady_block hi _).bind fun _ => steady_node _ _

theorem steady_primary : Steady True (primary inner) := by
  refine steady_kind.bind fun k => ?_
  split
  case h_8 =>
    exact steady_here.bind fun _ => steady_advance.bind fun _ => steady_node _ _
  case h_9 => exact steady_groupOrCast hi
  case h_10 => exact steady_sizeOfExpr hi
  case h_11 => exact steady_typeOfExpr hi
  case h_12 => exact steady_opExpr hi
  case h_13 => exact steady_interpolatedString hi
  case h_14 => exact steady_arrayExpr hi
  case h_15 => exact steady_braceExpr hi
  case h_16 => exact steady_missingExpr
  all_goals exact steady_literal

theorem round_chained (start : Location) (expr : Expr) : Round True (chained? inner start expr) := by
  have call : Steady True (do
      let args ← arguments inner .rightParen
      consume .rightParen "Expected ')' after arguments"
      return some (← node (Expr.mk (.call expr args)) start)) :=
    (steady_arguments hi _).bind fun _ => (steady_consume _ _).bind fun _ =>
      (steady_node _ _).bind fun _ => .pure _
  have named : ∀ name, Steady True (do return some (← node (Expr.mk (.member expr name)) start)) :=
    fun _ => (steady_node _ _).bind fun _ => .pure _
  have member : Steady True (do
      let k ← kind
      let name ← do
        if k == .identifier || k.isKeyword then pure (← advance).lexeme
        else
          reportUnexpected "Expected member name after '.'"
          pure ""
      return some (← node (Expr.mk (.member expr name)) start)) :=
    steady_kind.bind fun _ => .ite (steady_advance.bind fun _ => named _)
      ((steady_reportUnexpected _).bind fun _ => named _)
  have subscript : Steady True (do
      let index ← inner.expression
      consume .rightBracket "Expected ']' after index"
      return some (← node (Expr.mk (.subscript expr index)) start)) :=
    hi.expression.bind fun _ => (steady_consume _ _).bind fun _ =>
      (steady_node _ _).bind fun _ => .pure _
  constructor
  · refine steady_kind.bind fun k => ?_
    split
    · exact steady_advance.bind fun _ => call
    · exact steady_advance.bind fun _ => member
    · exact steady_advance.bind fun _ => subscript
    · exact .pure _
  · intro s
    refine .kind ?_
    split
    case h_1 hk => exact .advance ((call.moved (by rw [hk]; decide)).mono fun _ _ h _ => h)
    case h_2 hk => exact .advance ((member.moved (by rw [hk]; decide)).mono fun _ _ h _ => h)
    case h_3 hk => exact .advance ((subscript.moved (by rw [hk]; decide)).mono fun _ _ h _ => h)
    case h_4 => exact .pure fun h => absurd h Bool.false_ne_true

theorem steady_callChain : Steady True (callChain inner) :=
  steady_here.bind fun _ => (steady_primary hi).bind fun _ => .iterate (round_chained hi _) _

omit hi in
theorem round_trailed (start : Location) (expr : Expr) : Round noted (trailed? start expr) := by
  have close : ∀ op, Steady noted (do return some (← node (Expr.mk (.unary op expr .after)) start)) :=
    fun _ => (steady_node _ _).bind fun _ => .pure _
  constructor
  · refine steady_kind.bind fun k => ?_
    split
    · exact steady_advance.bind fun _ => close _
    · exact .pure _
  · intro s
    refine .kind ?_
    split
    case h_1 op hop =>
      refine .advance (((close op).moved ?_).mono fun _ _ h _ => h)
      intro he
      rw [he] at hop
      exact absurd hop.symm (Option.some_ne_none op)
    case h_2 => exact .pure fun h => absurd h Bool.false_ne_true

theorem steady_trailing : Steady True (trailing inner) :=
  steady_here.bind fun _ => (steady_callChain hi).bind fun _ => .iterate (round_trailed _) _

theorem steady_unaryBody : Steady True (unaryBody inner) := by
  refine steady_here.bind fun _ => steady_kind.bind fun k => .ite ?_ ?_
  · refine steady_advance.bind fun _ => hi.unary.bind fun _ => ?_
    exact (steady_node _ _).bind fun _ => steady_node _ _
  · split
    · exact steady_advance.bind fun _ => hi.unary.bind fun _ => steady_node _ _
    · exact steady_trailing hi

theorem steady_powerBody : Steady True (powerBody inner) := by
  refine steady_here.bind fun _ => (steady_unaryBody hi).bind fun _ => ?_
  exact (steady_accept _).bind fun _ => .ite (hi.power.bind fun _ => steady_node _ _) (.pure _)

omit hi in
theorem round_joined (operators : List Kind) {operand : Parser Expr} (h : Steady True operand)
    (start : Location) (left : Expr) : Round True (joined? operators operand start left) := by
  have close : ∀ op, Steady True (do
      let right ← operand
      return some (← node (Expr.mk (.binary op left right)) start)) := fun _ =>
    h.bind fun _ => (steady_node _ _).bind fun _ => .pure _
  constructor
  · refine steady_kind.bind fun k => ?_
    split
    · exact steady_advance.bind fun _ => close _
    · exact .pure _
  · intro s
    refine .kind ?_
    split
    case h_1 op hop =>
      refine .advance (((close op).moved ?_).mono fun _ _ h _ => h)
      intro he
      rw [he] at hop
      exact absurd hop.symm (Option.some_ne_none op)
    case h_2 => exact .pure fun h => absurd h Bool.false_ne_true

omit hi in
theorem steady_leftAssociative (operators : List Kind) {operand : Parser Expr}
    (h : Steady True operand) : Steady True (leftAssociative operators operand) :=
  steady_here.bind fun _ => h.bind fun _ => .iterate (round_joined operators h _) _

/-- Any operators, level by level. -/
theorem steady_levels (levels : List (List Kind)) :
    Steady True (levels.foldr leftAssociative (powerBody inner)) := by
  induction levels with
  | nil => exact steady_powerBody hi
  | cons operators levels ih => exact steady_leftAssociative operators ih

theorem steady_binaryBody : Steady True (binaryBody inner) := steady_levels hi operatorLevels

theorem steady_conditionalBody : Steady True (conditionalBody inner) := by
  refine steady_here.bind fun _ => (steady_binaryBody hi).bind fun _ => ?_
  refine (steady_accept _).bind fun _ => .ite (hi.expression.bind fun _ => ?_) (.pure _)
  exact (steady_consume _ _).bind fun _ => hi.conditional.bind fun _ => steady_node _ _

theorem steady_expressionBody : Steady True (expressionBody inner) := by
  refine steady_here.bind fun start => (steady_conditionalBody hi).bind fun target => ?_
  refine steady_kind.bind fun k => ?_
  split
  · exact .pure _
  · have close : ∀ op, Steady True (do
        let value ← inner.expression
        node (Expr.mk (.assign op target value)) start) :=
      fun _ => hi.expression.bind fun _ => steady_node _ _
    refine steady_advance.bind fun _ => .ite (close _) ?_
    exact (steady_reportStructural _ _ _).bind fun _ => close _

end Expressions

/-! ## Declarations -/

section Declarations

variable {inner : Level}

theorem steady_reportNoDeclaration (place : String) : Steady noted (reportNoDeclaration place) :=
  steady_current.bind fun _ => steady_report _ _ _

theorem steady_inheritanceEntry (isClass : Bool) : Steady noted (inheritanceEntry isClass) := by
  refine steady_here.bind fun _ => (steady_accept _).bind fun _ => ?_
  refine (steady_qualifiedName _).bind fun _ => .ite ?_ (.pure _)
  refine (steady_spanFrom _).bind fun _ => ?_
  exact (steady_reportStructural _ _ _).bind fun _ => .pure _

theorem steady_duplicateType (type : Ty) : Steady noted (duplicateType type) := by
  have hle : ∀ n : NodeId, n ≤ ((type.edit Edit.freshCopy).run n).2 := fun n =>
    (Node.copied (.type type) n).first_le
  have h : Steady noted (fun s => (((type.edit Edit.freshCopy).run s.nextId).1, s)) :=
    .view _ fun _ _ => rfl
  exact h.bind fun copy => (Steady.move (.restamp _ hle)).bind fun _ => .pure copy

theorem steady_importPath : Steady noted importPath := by
  refine (steady_check _).bind fun _ => .ite ?_ ((steady_reportUnexpected _).bind fun _ => .pure _)
  refine steady_advance.bind fun token => ?_
  split <;> exact .pure _

theorem steady_importDecl : Steady noted importDecl := by
  refine steady_here.bind fun start => steady_advance.bind fun _ => steady_importPath.bind fun path => ?_
  refine (steady_accept _).bind fun _ => ?_
  refine .join ((steady_consumeName _).map some) (.pure _) fun newName => ?_
  exact (steady_expectSemicolon _).bind fun _ => steady_node _ _

theorem steady_usingDecl : Steady noted usingDecl := by
  refine steady_here.bind fun _ => steady_advance.bind fun _ => ?_
  refine (steady_qualifiedName _).bind fun _ => ?_
  exact (steady_expectSemicolon _).bind fun _ => steady_node _ _

theorem steady_asmDecl : Steady noted asmDecl :=
  steady_here.bind fun _ => steady_asmBody.bind fun _ => steady_node _ _

theorem steady_dataDecl : Steady noted dataDecl := by
  refine steady_here.bind fun _ => steady_dataLayout.bind fun _ => (steady_consume _ _).bind fun _ => ?_
  refine (steady_consumeName _).bind fun _ => ?_
  exact (steady_expectSemicolon _).bind fun _ => steady_node _ _

theorem steady_templateParams : Steady noted templateParams := by
  refine (steady_consume _ _).bind fun _ => (steady_checkAny _).bind fun _ => ?_
  refine .join (.pure _) (steady_consumeName _).commaSeparated fun params => ?_
  exact (steady_consumeClosingAngle _).bind fun _ => .pure _

theorem steady_placeholderStatement (span : Span) : Steady noted (placeholderStatement span) :=
  (steady_nodeAt _ _).bind fun _ => steady_nodeAt _ _

variable (hi : inner.Steady)
include hi

theorem steady_memberBody (context : Context) (what : String) :
    Steady True (memberBody inner context what) := by
  refine (steady_consume _ _).bind fun _ => (hi.members context what).bind fun o => ?_
  cases o with
  | none => exact .pure _
  | some members => exact (steady_consume _ _).bind fun _ => .pure _

theorem steady_namespaceDecl : Steady True (namespaceDecl inner) := by
  refine steady_here.bind fun start => steady_advance.bind fun _ => ?_
  refine (steady_consumeName _).bind fun name => (steady_check _).bind fun _ => .ite ?_ ?_
  · refine (steady_memberBody hi _ _).bind fun _ => (steady_accept _).bind fun _ => ?_
    exact steady_node _ _
  · exact (steady_reportUnexpected _).bind fun _ => steady_node _ _

theorem steady_classOrObject : Steady True (classOrObject inner) := by
  refine steady_here.bind fun start => steady_advance.bind fun token => ?_
  refine (steady_consumeName _).bind fun name => (steady_accept _).bind fun _ => ?_
  refine .join (steady_inheritanceEntry _).commaSeparated (.pure _) fun entries => ?_
  refine (steady_accept _).bind fun isForward => .ite (steady_node _ _) ?_
  refine .join (steady_memberBody hi _ _) (steady_memberBody hi _ _) fun members => ?_
  exact (steady_accept _).bind fun _ => steady_node _ _

theorem steady_structFields : Steady True (structFields inner) := by
  refine steady_here.bind fun start => hi.type.bind fun type => (steady_consumeName _).bind fun _ => ?_
  have next : Steady True (do
      let name ← consumeName "Expected field name after ','"
      let type ← duplicateType type
      return some { name, type, span := ← spanFrom start : Binding }) :=
    (steady_consumeName _).bind fun _ => (steady_duplicateType _).bind fun _ =>
      (steady_spanFrom _).bind fun _ => .pure _
  refine (steady_spanFrom _).bind fun _ => ?_
  refine (Steady.many (.accept (k := .comma) nofun next)).bind fun _ => ?_
  exact (steady_expectSemicolon _).bind fun _ => .pure _

theorem steady_structDecl : Steady True (structDecl inner) := by
  refine steady_here.bind fun _ => steady_advance.bind fun _ => (steady_consumeName _).bind fun _ => ?_
  refine (steady_accept _).bind fun _ => .ite (steady_node _ _) ((steady_consume _ _).bind fun _ => ?_)
  refine (steady_bodyItems (steady_structFields hi) _).bind fun _ => ?_
  refine (steady_consume _ _).bind fun _ => (steady_accept _).bind fun _ => ?_
  exact steady_node _ _

theorem steady_parameter : Steady True (parameter inner) :=
  steady_here.bind fun _ => hi.type.bind fun _ => (steady_consumeName _).bind fun _ =>
    (steady_spanFrom _).bind fun _ => .pure _

theorem steady_parameters : Steady True (parameters inner) := by
  refine (steady_consume _ _).bind fun _ => (steady_check _).bind fun _ => ?_
  refine .join (.pure _) (steady_parameter hi).commaSeparated fun params => ?_
  exact (steady_consume _ _).bind fun _ => .pure _

theorem steady_functionDecl (context : Context) : Steady True (functionDecl inner context) := by
  refine steady_here.bind fun start => steady_advance.bind fun _ => ?_
  refine (steady_consumeName _).bind fun name => (steady_parameters hi).bind fun params => ?_
  refine (steady_resultType hi.type).bind fun result => (steady_check _).bind fun _ => ?_
  have close : ∀ body, Steady True (do
      let decl ← node (Decl.mk (.functionDecl name params result body)) start
      if context.container = .classBody then
        reportStructural .functionInClass "Functions cannot be defined in a class; use an object"
          decl.span
      return decl) := fun _ =>
    (steady_node _ _).bind fun _ =>
      .ite ((steady_reportStructural _ _ _).bind fun _ => .pure _) (.pure _)
  refine .ite (((steady_block hi _).map some).bind close) ((steady_accept _).bind fun _ => ?_)
  exact .ite (close none) ((steady_reportUnexpected _).bind fun _ => close none)

theorem steady_operatorDecl (context : Context) : Steady True (operatorDecl inner context) := by
  refine steady_here.bind fun start => steady_advance.bind fun _ => ?_
  refine (steady_parameters hi).bind fun params => (steady_consume _ _).bind fun _ => ?_
  have close : ∀ symbol, Steady True (do
      consume .rightBracket "Expected ']' after operator symbol"
      let result ← resultType inner.type
      let body ← block inner context.functionBody
      node (Decl.mk (.operatorDecl symbol params result body)) start) := fun _ =>
    (steady_consume _ _).bind fun _ => (steady_resultType hi.type).bind fun _ =>
      (steady_block hi _).bind fun _ => steady_node _ _
  refine (steady_checkOrEnd _).bind fun _ => .ite ?_ (steady_advance.bind fun _ => close _)
  exact (steady_reportUnexpected _).bind fun _ => close _

theorem steady_enumMember : Steady True (enumMember inner) := by
  refine steady_here.bind fun start => (steady_consumeName _).bind fun name => ?_
  refine (steady_accept _).bind fun _ => .join (hi.expression.map some) (.pure _) fun value => ?_
  exact (steady_spanFrom _).bind fun _ => .pure _

theorem steady_enumDecl : Steady True (enumDecl inner) := by
  refine steady_here.bind fun _ => steady_advance.bind fun _ => (steady_consumeName _).bind fun _ => ?_
  refine (steady_consume _ _).bind fun _ => ((steady_enumMember hi).commaTerminated _).bind fun _ => ?_
  exact (steady_consume _ _).bind fun _ => (steady_accept _).bind fun _ => steady_node _ _

theorem steady_typeAlias : Steady True (typeAlias inner) := by
  refine steady_here.bind fun _ => steady_advance.bind fun _ => (steady_consumeName _).bind fun _ => ?_
  refine (steady_consume _ _).bind fun _ => hi.type.bind fun _ => ?_
  exact (steady_expectSemicolon _).bind fun _ => steady_node _ _

theorem steady_templateDecl (context : Context) : Steady True (templateDecl inner context) := by
  refine steady_here.bind fun start => steady_advance.bind fun _ => ?_
  refine steady_templateParams.bind fun params => (hi.declaration context).bind fun o => ?_
  have close : ∀ decls : List Decl, Steady True (do
      let span ← spanFrom start
      decls.mapM fun decl => nodeAt (Decl.mk (.template params decl)) span) := fun _ =>
    (steady_spanFrom _).bind fun _ => .mapM (fun _ => steady_nodeAt _ _) _
  cases o with
  | some decls => exact close decls
  | none =>
    refine (steady_reportNoDeclaration _).bind fun _ => steady_emptySpan.bind fun _ => ?_
    refine (steady_placeholderStatement _).bind fun _ => ?_
    exact (steady_nodeAt _ _).bind fun _ => close _

theorem steady_finishFunctionPointer (type : Ty) : Steady True (finishFunctionPointer inner type) := by
  unfold finishFunctionPointer
  split
  · refine (steady_accept _).bind fun _ => .ite ?_ (.pure _)
    refine (steady_typeList hi.type _).bind fun _ => (steady_consume _ _).bind fun _ => ?_
    exact (steady_spanFrom _).bind fun _ => (steady_nodeAt _ _).bind fun _ => .pure _
  · exact .pure _

theorem steady_declarator (start : Location) (qualifiers : Qualifiers) (type : Ty) (name : String)
    (instantiation : Option (List Expr)) :
    Steady True (declarator inner start qualifiers type name instantiation) := by
  refine (steady_accept _).bind fun _ => .join (hi.expression.map some) (.pure _) fun _ => ?_
  exact steady_node _ _

theorem steady_finishVariables (start : Location) (qualifiers : Qualifiers) (type : Ty)
    (name : String) (instantiation : Option (List Expr)) :
    Steady True (finishVariables inner start qualifiers type name instantiation) := by
  have next : Steady True (do
      let name ← consumeName "Expected variable name after ','"
      let copy ← duplicateType type
      return some (← declarator inner start qualifiers copy name none)) :=
    (steady_consumeName _).bind fun _ => (steady_duplicateType _).bind fun _ =>
      (steady_declarator hi _ _ _ _ _).bind fun _ => .pure _
  refine (steady_declarator hi _ _ _ _ _).bind fun _ => ?_
  refine (Steady.many (.accept (k := .comma) nofun next)).bind fun _ => ?_
  exact (steady_expectSemicolon _).bind fun _ => .pure _

theorem steady_variableDecl : Steady True (variableDecl inner) := by
  refine steady_here.bind fun _ => steady_qualifiers.bind fun _ => hi.type.bind fun _ => ?_
  refine (steady_consumeName _).bind fun _ => (steady_finishFunctionPointer hi _).bind fun _ => ?_
  exact steady_finishVariables hi _ _ _ _ _

theorem steady_instantiationArgs : Steady True (instantiationArgs inner) := by
  refine (steady_accept _).bind fun _ => .ite ((steady_arguments hi _).bind fun _ => ?_) (.pure _)
  exact (steady_consume _ _).bind fun _ => .pure _

theorem steady_nameLedDecl : Steady True (nameLedDecl inner) := by
  refine (probe_declaratorForm hi.skim).steady.bind fun o => ?_
  cases o with
  | none => exact steady_current.bind fun _ => (steady_note _).bind fun _ => .pure _
  | some form =>
    refine steady_here.bind fun _ => steady_position.bind fun _ => hi.type.bind fun _ => ?_
    cases form with
    | named =>
      refine (steady_consumeName _).bind fun _ => (steady_finishFunctionPointer hi _).bind fun _ => ?_
      refine (steady_noteCommitted _ _).bind fun _ => ?_
      exact (steady_finishVariables hi _ _ _ _ _).bind fun _ => .pure _
    | instantiation =>
      refine (steady_instantiationArgs hi).bind fun _ => (steady_consume _ _).bind fun _ => ?_
      refine (steady_consume _ _).bind fun _ => (steady_consumeName _).bind fun _ => ?_
      refine (steady_noteCommitted _ _).bind fun _ => ?_
      exact (steady_finishVariables hi _ _ _ _ _).bind fun _ => .pure _

theorem steady_declarationBody (context : Context) :
    Steady True (declarationBody inner context) := by
  have one : ∀ decl : Parser Decl, Steady True decl → Steady True (declarationBody.one decl) :=
    fun _ h => h.bind fun _ => .pure _
  refine .get (fun _ _ => rfl) fun s => ?_
  dsimp only
  split
  case h_1 => exact one _ (steady_namespaceDecl hi)
  case h_2 | h_3 => exact one _ (steady_classOrObject hi)
  case h_4 => exact one _ (steady_structDecl hi)
  case h_5 => exact one _ (steady_functionDecl hi context)
  case h_6 => exact one _ (steady_operatorDecl hi context)
  case h_7 => exact one _ steady_importDecl
  case h_8 => exact one _ steady_usingDecl
  case h_9 => exact (steady_templateDecl hi context).map some
  case h_10 => exact one _ (steady_enumDecl hi)
  case h_11 => exact one _ (steady_typeAlias hi)
  case h_12 => exact one _ steady_asmDecl
  case h_13 => exact steady_nameLedDecl hi
  case h_14 =>
    exact .ite (one _ steady_dataDecl) (.ite ((steady_variableDecl hi).map some) (.pure _))

theorem steady_memberItem (context : Context) (what : String) :
    Steady True (memberItem inner context what) := by
  refine (steady_declarationBody hi context).bind fun o => ?_
  cases o with
  | some decls => exact .pure _
  | none => exact (steady_reportNoDeclaration _).bind fun _ => .pure _

theorem steady_membersBody (context : Context) (what : String) :
    Steady True (membersBody inner context what) :=
  steady_bodyItems (steady_memberItem hi context what) _

end Declarations

/-! ## Statements -/

section Statements

variable {inner : Level}

theorem steady_declarationStatement (decl : Decl) : Steady noted (declarationStatement decl) := by
  unfold declarationStatement
  split
  · exact .pure _
  · exact (steady_reportStructural _ _ _).bind fun _ => steady_nodeAt _ _

theorem steady_rangeHeader : Steady True rangeHeader := steady_rangeNames.attempt

theorem steady_breakStatement (context : Context) : Steady noted (breakStatement context) := by
  refine steady_here.bind fun _ => steady_advance.bind fun _ => ?_
  refine (steady_expectSemicolon _).bind fun _ => (steady_node _ _).bind fun _ => ?_
  exact .ite (.pure _) ((steady_reportStructural _ _ _).bind fun _ => .pure _)

theorem steady_continueStatement (context : Context) : Steady noted (continueStatement context) := by
  refine steady_here.bind fun _ => steady_advance.bind fun _ => ?_
  refine (steady_expectSemicolon _).bind fun _ => (steady_node _ _).bind fun _ => ?_
  exact .ite (.pure _) ((steady_reportStructural _ _ _).bind fun _ => .pure _)

theorem steady_asmStatement : Steady noted asmStatement :=
  steady_here.bind fun _ => steady_asmBody.bind fun _ => steady_node _ _

variable (hi : inner.Steady)
include hi

theorem steady_expressionStatement : Steady True (expressionStatement inner) :=
  steady_here.bind fun _ => hi.expression.bind fun _ =>
    (steady_expectSemicolon _).bind fun _ => steady_node _ _

theorem steady_condition (keyword : String) : Steady True (condition inner keyword) :=
  (steady_consume _ _).bind fun _ => hi.expression.bind fun _ =>
    (steady_consume _ _).bind fun _ => .pure _

theorem steady_ifStatement (context : Context) : Steady True (ifStatement inner context) := by
  refine steady_here.bind fun _ => steady_advance.bind fun _ => (steady_condition hi _).bind fun _ => ?_
  refine (hi.statement _).bind fun _ => (steady_accept _).bind fun _ => ?_
  exact .join ((hi.statement _).map some) (.pure _) fun _ => steady_node _ _

theorem steady_whileStatement (context : Context) : Steady True (whileStatement inner context) := by
  refine steady_here.bind fun _ => steady_advance.bind fun _ => (steady_condition hi _).bind fun _ => ?_
  exact (hi.statement _).bind fun _ => steady_node _ _

theorem steady_doStatement (context : Context) : Steady True (doStatement inner context) := by
  refine steady_here.bind fun _ => steady_advance.bind fun _ => (hi.statement _).bind fun _ => ?_
  refine (steady_consume _ _).bind fun _ => (steady_condition hi _).bind fun _ => ?_
  exact (steady_expectSemicolon _).bind fun _ => steady_node _ _

theorem steady_forInit (context : Context) : Steady True (forInit inner context) := by
  refine (steady_accept _).bind fun _ => .ite (.pure _) ?_
  refine (steady_declarationBody hi context).bind fun o => ?_
  cases o with
  | some decls => exact .mapM steady_declarationStatement _
  | none => exact (steady_expressionStatement hi).bind fun _ => .pure _

theorem steady_forStatement (context : Context) : Steady True (forStatement inner context) := by
  refine steady_here.bind fun _ => steady_advance.bind fun _ => (steady_consume _ _).bind fun _ => ?_
  refine steady_rangeHeader.bind fun header => ?_
  cases header with
  | some names =>
    refine hi.expression.bind fun _ => (steady_consume _ _).bind fun _ => ?_
    exact (hi.statement _).bind fun _ => steady_node _ _
  | none =>
    refine (steady_forInit hi context).bind fun _ => (steady_check _).bind fun _ => ?_
    refine .join (.pure _) (hi.expression.map some) fun _ => (steady_consume _ _).bind fun _ => ?_
    refine (steady_check _).bind fun _ => .join (.pure _) (hi.expression.map some) fun _ => ?_
    refine (steady_consume _ _).bind fun _ => ?_
    exact (hi.statement _).bind fun _ => steady_node _ _

theorem steady_switchCase (context : Context) : Steady True (switchCase inner context) := by
  refine steady_here.bind fun _ => steady_advance.bind fun _ => (steady_consume _ _).bind fun _ => ?_
  refine (steady_accept _).bind fun _ => .join (.pure _) (hi.expression.map some) fun _ => ?_
  refine (steady_consume _ _).bind fun _ => (steady_block hi context).bind fun _ => ?_
  exact (steady_accept _).bind fun _ => (steady_spanFrom _).bind fun _ => .pure _

theorem steady_nextCases (context : Context) (cases : List Case) :
    Steady True (nextCases inner context cases) := by
  refine (steady_check _).bind fun _ => .ite ?_ ((steady_reportUnexpected _).bind fun _ => .pure _)
  refine (steady_switchCase hi context).bind fun case => ?_
  exact .ite ((steady_reportStructural _ _ _).bind fun _ => .pure _) (.pure _)

theorem steady_switchRound (context : Context) (cases : List Case) :
    Steady True (switchRound inner context cases) := by
  refine (steady_checkOrEnd _).bind fun _ => .ite (.pure _) (steady_position.bind fun before => ?_)
  refine (steady_nextCases hi context cases).bind fun _ => ?_
  exact (steady_recoverAfterItem before).bind fun _ => .pure _

theorem switchRound_gets_on (context : Context) (cases : List Case) :
    BodyRound .rightBrace (switchRound inner context cases) := by
  intro s
  refine .checkOrEnd_cases (fun he => .pure (.inl ⟨rfl, rfl, he⟩)) fun _ hne => .position ?_
  exact (recovered_moves (steady_nextCases hi context cases) id hne).mono fun _ _ h => .inr h

theorem steady_switchCases (context : Context) : Steady True (switchCases inner context) :=
  .iterate (fun cases => (switchRound_gets_on hi context cases).round
    (steady_switchRound hi context cases)) []

theorem steady_switchStatement (context : Context) : Steady True (switchStatement inner context) := by
  refine steady_here.bind fun _ => steady_advance.bind fun _ => (steady_condition hi _).bind fun _ => ?_
  refine (steady_consume _ _).bind fun _ => (steady_switchCases hi _).bind fun _ => ?_
  refine (steady_consume _ _).bind fun _ => (steady_node _ _).bind fun _ => ?_
  exact .ite (.pure _) ((steady_reportStructural _ _ _).bind fun _ => .pure _)

theorem steady_returnStatement : Steady True (returnStatement inner) := by
  refine steady_here.bind fun _ => steady_advance.bind fun _ => (steady_checkAny _).bind fun _ => ?_
  refine .join (.pure _) (hi.expression.map some) fun _ => ?_
  exact (steady_expectSemicolon _).bind fun _ => steady_node _ _

theorem steady_handlerException : Steady True (handlerException inner) := by
  refine (steady_accept _).bind fun _ => .ite (hi.type.bind fun exception => ?_) (.pure _)
  have close : ∀ binding : Option String, Steady True (do
      consume .rightParen "Expected ')' after catch parameter"
      return (some exception, binding)) := fun _ => (steady_consume _ _).bind fun _ => .pure _
  exact (steady_check _).bind fun _ => .ite (steady_advance.bind fun _ => close _) (close none)

theorem round_handler (context : Context) : Round True (handler? inner context) := by
  have caught : ∀ start, Steady True (do
      let caught ← handlerException inner
      let body ← block inner context
      return some { exception := caught.1, binding := caught.2, body, span := ← spanFrom start : Handler }) :=
    fun _ =>
    (steady_handlerException hi).bind fun _ => (steady_block hi context).bind fun _ =>
      (steady_spanFrom _).bind fun _ => .pure _
  have round := fun start => Round.accept (k := .kwCatch) (by decide) (caught start)
  refine ⟨steady_here.bind fun start => (round start).toSteady, fun s => ?_⟩
  exact .here ((round s.here).progress s)

theorem steady_tryStatement (context : Context) : Steady True (tryStatement inner context) := by
  refine steady_here.bind fun _ => steady_advance.bind fun _ => (steady_block hi context).bind fun _ => ?_
  refine (Steady.many (round_handler hi context)).bind fun _ => ?_
  exact .ite ((steady_reportUnexpected _).bind fun _ => steady_node _ _) (steady_node _ _)

theorem steady_closedBlock (context : Context) : Steady True (closedBlock inner context) :=
  (steady_block hi context).bind fun _ => (steady_accept _).bind fun _ => .pure _

theorem steady_throwStatement (context : Context) : Steady True (throwStatement inner context) := by
  refine steady_here.bind fun _ => steady_advance.bind fun _ => (steady_accept _).bind fun _ => ?_
  refine .ite (steady_node _ _) ((steady_check _).bind fun _ => .ite ?_ ?_)
  · exact (steady_closedBlock hi context).bind fun _ => steady_node _ _
  · refine hi.expression.bind fun _ => (steady_check _).bind fun _ => .ite ?_ ?_
    · exact (steady_closedBlock hi context).bind fun _ => steady_node _ _
    · exact (steady_expectSemicolon _).bind fun _ => steady_node _ _

theorem steady_assertStatement : Steady True (assertStatement inner) := by
  refine steady_here.bind fun _ => steady_advance.bind fun _ => (steady_consume _ _).bind fun _ => ?_
  refine hi.expression.bind fun _ => (steady_consume _ _).bind fun _ => ?_
  exact (steady_expectSemicolon _).bind fun _ => steady_node _ _

theorem steady_lockStatement (context : Context) (which : LockKind) :
    Steady True (lockStatement inner context which) := by
  refine steady_here.bind fun _ => steady_advance.bind fun _ => (steady_qualifiedName _).bind fun _ => ?_
  refine (steady_check _).bind fun _ => .ite ?_ ?_
  · exact ((steady_closedBlock hi context).map some).bind fun _ => steady_node _ _
  · exact (steady_expectSemicolon _).bind fun _ => steady_node _ _

theorem steady_blockStatement (context : Context) : Steady True (blockStatement inner context) :=
  (steady_block hi context).bind fun _ => steady_nodeAt _ _

theorem steady_keywordStatement (context : Context) : Steady True (keywordStatement inner context) := by
  refine steady_kind.bind fun k => ?_
  split
  case h_1 => exact (steady_ifStatement hi context).map some
  case h_2 => exact (steady_whileStatement hi context).map some
  case h_3 => exact (steady_doStatement hi context).map some
  case h_4 => exact (steady_forStatement hi context).map some
  case h_5 => exact (steady_switchStatement hi context).map some
  case h_6 => exact (steady_returnStatement hi).map some
  case h_7 => exact (steady_breakStatement context).map some
  case h_8 => exact (steady_continueStatement context).map some
  case h_9 => exact (steady_tryStatement hi context).map some
  case h_10 => exact (steady_throwStatement hi context).map some
  case h_11 => exact (steady_assertStatement hi).map some
  case h_12 => exact steady_asmStatement.map some
  case h_13 | h_14 | h_15 => exact (steady_lockStatement hi context _).map some
  case h_16 => exact (steady_blockStatement hi context).map some
  case h_17 => exact .pure _

theorem steady_plainStatement (context : Context) : Steady True (plainStatement inner context) := by
  refine (steady_keywordStatement hi context).bind fun o => ?_
  cases o with
  | some stmt => exact .pure _
  | none => exact steady_expressionStatement hi

theorem steady_blockItem (context : Context) : Steady True (blockItem inner context) := by
  refine (steady_keywordStatement hi context).bind fun o => ?_
  cases o with
  | some stmt => exact .pure _
  | none =>
    refine (steady_declarationBody hi context).bind fun o => ?_
    cases o with
    | some decls => exact .mapM steady_declarationStatement _
    | none => exact (steady_expressionStatement hi).bind fun _ => .pure _

theorem steady_itemsBody (context : Context) : Steady True (itemsBody inner context) :=
  steady_bodyItems (steady_blockItem hi context) _

theorem steady_statementBody (context : Context) : Steady True (statementBody inner context) := by
  refine steady_here.bind fun _ => (steady_blockItem hi context).bind fun statements => ?_
  split
  · exact .pure _
  · exact (steady_spanFrom _).bind fun _ => steady_nodeAt _ _

theorem steady_topLevelItem (config : Config) : Steady True (topLevelItem config inner) := by
  refine (steady_declarationBody hi .topLevel).bind fun o => ?_
  cases o with
  | some decls => exact .pure _
  | none =>
    refine (steady_plainStatement hi .topLevel).bind fun stmt => ?_
    have close : Steady True (do return [← nodeAt (Decl.mk (.statement stmt)) stmt.span]) :=
      (steady_nodeAt _ _).bind fun _ => .pure _
    exact .ite close ((steady_reportStructural _ _ _).bind fun _ => close)

theorem steady_programOver (config : Config) : Steady True (programOver config inner) := by
  refine steady_here.bind fun _ => (steady_bodyItems (steady_topLevelItem hi config) _).bind fun _ => ?_
  exact .get (fun _ _ => rfl) fun s => .pure _

end Statements

/-! ## Levels -/

/-- A level over a steady one is steady. -/
theorem Level.Steady.above {inner : Unit → Level} (h : (inner ()).Steady) :
    (Level.above inner).Steady where
  type := steady_typeBody h.expression h.type
  skim := steady_typeBody steady_skippedSize h.skim
  expression := steady_expressionBody h
  conditional := steady_conditionalBody h
  power := steady_powerBody h
  unary := steady_unaryBody h
  statement context := steady_statementBody h context
  items context := (steady_itemsBody h context).map some
  members context what := (steady_membersBody h context what).map some
  declaration context := steady_declarationBody h context

theorem Level.full_steady (limit : Nat) : (Level.full limit).Steady where
  type := steady_refuseNode limit _
  skim := steady_refuseNode limit _
  expression := steady_refuseNode limit _
  conditional := steady_refuseNode limit _
  power := steady_refuseNode limit _
  unary := steady_refuseNode limit _
  statement _ := steady_here.bind fun _ => (steady_refuse limit).bind fun _ =>
    (steady_spanFrom _).bind fun _ => steady_placeholderStatement _
  items _ := (steady_refuse limit).bind fun _ => .pure _
  members _ _ := (steady_refuse limit).bind fun _ => .pure _
  declaration _ := (steady_refuse limit).bind fun _ => .pure _

/-- Every level of the grammar is steady. -/
theorem grammar_steady (limit room : Nat) : (grammar limit room).Steady := by
  induction room with
  | zero => exact Level.full_steady limit
  | succ room ih => exact @Level.Steady.above (fun _ => grammar limit room) ih

end FluxFront.Grammar
