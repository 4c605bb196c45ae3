import FluxFront.Proofs.CountedDepth

/-!
# Parsing gets on and ends

Any list of tokens is read to its end, whatever it holds and however little nesting is allowed.

* **Termination**: the levels of nesting are finitely many, and the loops are bounded.  Neither number is
  what ends a parse: with more levels, or with any larger bound, the same program and the same state come
  out.
* **Measure**: what may still be read (`State.weight`).  Splitting a `>>` adds a token but no weight,
  probes give back what they read, and a round of a loop that reads nothing is made to skip a token.
* **End**: behind a parse the cursor stands at the end of the text, so a second parse finds nothing.  The
  depth is counted down to where it was and no type is skimmed any more, since a program does nothing but
  moves (`Moves.since`).
-/

namespace FluxFront.Grammar

open Token (Kind)

/-! ## The functions of the grammar -/

/-- The functions that read tokens, over a level for what they contain. -/
inductive Production (inner : Level) : {α : Type} → Parser α → Prop
  -- tokens and recovery
  | advance : Production inner advance
  | accept (k : Kind) : Production inner (accept k)
  | acceptAny (ks : List Kind) : Production inner (acceptAny ks)
  | consume (k : Kind) (expected : String) : Production inner (consume k expected)
  | consumeName (expected : String) : Production inner (consumeName expected)
  | consumeClosingAngle (expected : String) : Production inner (consumeClosingAngle expected)
  | skipGroup : Production inner skipGroup
  | expectSemicolon (after : String) : Production inner (expectSemicolon after)
  | synchronize : Production inner synchronize
  | recoverAfterItem (before : Nat) : Production inner (recoverAfterItem before)
  -- the entries of the level
  | type : Production inner inner.type
  | skim : Production inner inner.skim
  | expression : Production inner inner.expression
  | conditional : Production inner inner.conditional
  | power : Production inner inner.power
  | unary : Production inner inner.unary
  | statement (context : Context) : Production inner (inner.statement context)
  | items (context : Context) : Production inner (inner.items context)
  | members (context : Context) (what : String) : Production inner (inner.members context what)
  | declaration (context : Context) : Production inner (inner.declaration context)
  -- types
  | qualifiedName (expected : String) : Production inner (qualifiedName expected)
  | qualifiers : Production inner qualifiers
  | bitWidth : Production inner bitWidth
  | dataLayout : Production inner dataLayout
  | builtinType (builtin : Builtin) : Production inner (builtinType builtin)
  | typeList (close : Kind) : Production inner (typeList inner.type close)
  | resultType : Production inner (resultType inner.type)
  | functionType : Production inner (functionType inner.type)
  | namedType : Production inner (namedType inner.type)
  | baseType : Production inner (baseType inner.type)
  | pointerTo (pointee : Ty) (start : Location) : Production inner (pointerTo pointee start)
  | skippedSize : Production inner skippedSize
  | arraySize : Production inner (arraySize inner.expression)
  | modifiedType (start : Location) (type : Ty) :
      Production inner (modifiedType? (arraySize inner.expression) start type)
  | typeBody : Production inner (typeBody (arraySize inner.expression) inner.type)
  -- blocks and raw assembly
  | block (context : Context) : Production inner (block inner context)
  | asmBody : Production inner asmBody
  -- expressions
  | arguments (close : Kind) : Production inner (arguments inner close)
  | literal : Production inner literal
  | castAhead : Production inner (castAhead inner)
  | groupOrCast : Production inner (groupOrCast inner)
  | sizeOfExpr : Production inner (sizeOfExpr inner)
  | typeOfExpr : Production inner (typeOfExpr inner)
  | opExpr : Production inner (opExpr inner)
  | interpolatedValues : Production inner (interpolatedValues inner)
  | interpolatedString : Production inner (interpolatedString inner)
  | arrayExpr : Production inner (arrayExpr inner)
  | dictionaryEntry : Production inner (dictionaryEntry inner)
  | braceExpr : Production inner (braceExpr inner)
  | missingExpr : Production inner missingExpr
  | primary : Production inner (primary inner)
  | chained (start : Location) (expr : Expr) : Production inner (chained? inner start expr)
  | callChain : Production inner (callChain inner)
  | trailed (start : Location) (expr : Expr) : Production inner (trailed? start expr)
  | trailing : Production inner (trailing inner)
  | unaryBody : Production inner (unaryBody inner)
  | powerBody : Production inner (powerBody inner)
  | leftAssociative (operators : List Kind) {operand : Parser Expr} (h : Production inner operand) :
      Production inner (leftAssociative operators operand)
  | binaryBody : Production inner (binaryBody inner)
  | conditionalBody : Production inner (conditionalBody inner)
  | expressionBody : Production inner (expressionBody inner)
  -- declarations
  | memberBody (context : Context) (what : String) : Production inner (memberBody inner context what)
  | namespaceDecl : Production inner (namespaceDecl inner)
  | inheritanceEntry (isClass : Bool) : Production inner (inheritanceEntry isClass)
  | classOrObject : Production inner (classOrObject inner)
  | structFields : Production inner (structFields inner)
  | structDecl : Production inner (structDecl inner)
  | parameter : Production inner (parameter inner)
  | parameters : Production inner (parameters inner)
  | functionDecl (context : Context) : Production inner (functionDecl inner context)
  | operatorDecl (context : Context) : Production inner (operatorDecl inner context)
  | importPath : Production inner importPath
  | importDecl : Production inner importDecl
  | usingDecl : Production inner usingDecl
  | enumMember : Production inner (enumMember inner)
  | enumDecl : Production inner (enumDecl inner)
  | typeAlias : Production inner (typeAlias inner)
  | asmDecl : Production inner asmDecl
  | dataDecl : Production inner dataDecl
  | templateParams : Production inner templateParams
  | templateDecl (context : Context) : Production inner (templateDecl inner context)
  | finishFunctionPointer (type : Ty) : Production inner (finishFunctionPointer inner type)
  | declarator (start : Location) (qualifiers : Qualifiers) (type : Ty) (name : String)
      (instantiation : Option (List Expr)) :
      Production inner (declarator inner start qualifiers type name instantiation)
  | finishVariables (start : Location) (qualifiers : Qualifiers) (type : Ty) (name : String)
      (instantiation : Option (List Expr)) :
      Production inner (finishVariables inner start qualifiers type name instantiation)
  | variableDecl : Production inner (variableDecl inner)
  | instantiationFollows : Production inner instantiationFollows
  | declaratorForm : Production inner (declaratorForm inner)
  | instantiationArgs : Production inner (instantiationArgs inner)
  | nameLedDecl : Production inner (nameLedDecl inner)
  | declarationBody (context : Context) : Production inner (declarationBody inner context)
  | membersBody (context : Context) (what : String) :
      Production inner (membersBody inner context what)
  -- statements
  | declarationStatement (decl : Decl) : Production inner (declarationStatement decl)
  | expressionStatement : Production inner (expressionStatement inner)
  | condition (keyword : String) : Production inner (condition inner keyword)
  | ifStatement (context : Context) : Production inner (ifStatement inner context)
  | whileStatement (context : Context) : Production inner (whileStatement inner context)
  | doStatement (context : Context) : Production inner (doStatement inner context)
  | rangeHeader : Production inner rangeHeader
  | forInit (context : Context) : Production inner (forInit inner context)
  | forStatement (context : Context) : Production inner (forStatement inner context)
  | switchCase (context : Context) : Production inner (switchCase inner context)
  | switchCases (context : Context) : Production inner (switchCases inner context)
  | switchStatement (context : Context) : Production inner (switchStatement inner context)
  | returnStatement : Production inner (returnStatement inner)
  | breakStatement (context : Context) : Production inner (breakStatement context)
  | continueStatement (context : Context) : Production inner (continueStatement context)
  | handlerException : Production inner (handlerException inner)
  | handler (context : Context) : Production inner (handler? inner context)
  | tryStatement (context : Context) : Production inner (tryStatement inner context)
  | closedBlock (context : Context) : Production inner (closedBlock inner context)
  | throwStatement (context : Context) : Production inner (throwStatement inner context)
  | assertStatement : Production inner (assertStatement inner)
  | asmStatement : Production inner asmStatement
  | lockStatement (context : Context) (which : LockKind) :
      Production inner (lockStatement inner context which)
  | blockStatement (context : Context) : Production inner (blockStatement inner context)
  | keywordStatement (context : Context) : Production inner (keywordStatement inner context)
  | plainStatement (context : Context) : Production inner (plainStatement inner context)
  | blockItem (context : Context) : Production inner (blockItem inner context)
  | itemsBody (context : Context) : Production inner (itemsBody inner context)
  | statementBody (context : Context) : Production inner (statementBody inner context)
  -- programs
  | topLevelItem (config : Config) : Production inner (topLevelItem config inner)
  | programOver (config : Config) : Production inner (programOver config inner)

/-- Every function of the grammar is steady over a steady level. -/
theorem Production.steady {α : Type} {inner : Level} {p : Parser α} (hi : inner.Steady)
    (h : Production inner p) : Steady True p := by
  induction h with
  | advance => exact steady_advance
  | accept _ => exact steady_accept _
  | acceptAny _ => exact steady_acceptAny _
  | consume _ _ => exact steady_consume _ _
  | consumeName _ => exact steady_consumeName _
  | consumeClosingAngle _ => exact steady_consumeClosingAngle _
  | skipGroup => exact steady_skipGroup
  | expectSemicolon _ => exact steady_expectSemicolon _
  | synchronize => exact steady_synchronize
  | recoverAfterItem _ => exact steady_recoverAfterItem _
  | type => exact hi.type
  | skim => exact hi.skim.mono False.elim
  | expression => exact hi.expression
  | conditional => exact hi.conditional
  | power => exact hi.power
  | unary => exact hi.unary
  | statement _ => exact hi.statement _
  | items _ => exact hi.items _
  | members _ _ => exact hi.members _ _
  | declaration _ => exact hi.declaration _
  | qualifiedName _ => exact steady_qualifiedName _
  | qualifiers => exact steady_qualifiers
  | bitWidth => exact steady_bitWidth
  | dataLayout => exact steady_dataLayout
  | builtinType _ => exact steady_builtinType _
  | typeList _ => exact steady_typeList hi.type _
  | resultType => exact steady_resultType hi.type
  | functionType => exact steady_functionType hi.type
  | namedType => exact steady_namedType hi.type
  | baseType => exact steady_baseType hi.type
  | pointerTo _ _ => exact steady_pointerTo _ _
  | skippedSize => exact steady_skippedSize
  | arraySize => exact steady_arraySize hi.expression
  | modifiedType _ _ => exact (round_modifiedType (steady_arraySize hi.expression) _ _).toSteady
  | typeBody => exact steady_typeBody (steady_arraySize hi.expression) hi.type
  | block _ => exact steady_block hi _
  | asmBody => exact steady_asmBody
  | arguments _ => exact steady_arguments hi _
  | literal => exact steady_literal
  | castAhead => exact (probe_castAhead hi.skim).steady
  | groupOrCast => exact steady_groupOrCast hi
  | sizeOfExpr => exact steady_sizeOfExpr hi
  | typeOfExpr => exact steady_typeOfExpr hi
  | opExpr => exact steady_opExpr hi
  | interpolatedValues => exact steady_interpolatedValues hi
  | interpolatedString => exact steady_interpolatedString hi
  | arrayExpr => exact steady_arrayExpr hi
  | dictionaryEntry => exact steady_dictionaryEntry hi
  | braceExpr => exact steady_braceExpr hi
  | missingExpr => exact steady_missingExpr
  | primary => exact steady_primary hi
  | chained _ _ => exact (round_chained hi _ _).toSteady
  | callChain => exact steady_callChain hi
  | trailed _ _ => exact (round_trailed _ _).toSteady
  | trailing => exact steady_trailing hi
  | unaryBody => exact steady_unaryBody hi
  | powerBody => exact steady_powerBody hi
  | leftAssociative operators _ ih => exact steady_leftAssociative operators ih
  | binaryBody => exact steady_binaryBody hi
  | conditionalBody => exact steady_conditionalBody hi
  | expressionBody => exact steady_expressionBody hi
  | memberBody _ _ => exact steady_memberBody hi _ _
  | namespaceDecl => exact steady_namespaceDecl hi
  | inheritanceEntry _ => exact steady_inheritanceEntry _
  | classOrObject => exact steady_classOrObject hi
  | structFields => exact steady_structFields hi
  | structDecl => exact steady_structDecl hi
  | parameter => exact steady_parameter hi
  | parameters => exact steady_parameters hi
  | functionDecl _ => exact steady_functionDecl hi _
  | operatorDecl _ => exact steady_operatorDecl hi _
  | importPath => exact steady_importPath
  | importDecl => exact steady_importDecl
  | usingDecl => exact steady_usingDecl
  | enumMember => exact steady_enumMember hi
  | enumDecl => exact steady_enumDecl hi
  | typeAlias => exact steady_typeAlias hi
  | asmDecl => exact steady_asmDecl
  | dataDecl => exact steady_dataDecl
  | templateParams => exact steady_templateParams
  | templateDecl _ => exact steady_templateDecl hi _
  | finishFunctionPointer _ => exact steady_finishFunctionPointer hi _
  | declarator _ _ _ _ _ => exact steady_declarator hi _ _ _ _ _
  | finishVariables _ _ _ _ _ => exact steady_finishVariables hi _ _ _ _ _
  | variableDecl => exact steady_variableDecl hi
  | instantiationFollows => exact steady_instantiationFollows
  | declaratorForm => exact (probe_declaratorForm hi.skim).steady
  | instantiationArgs => exact steady_instantiationArgs hi
  | nameLedDecl => exact steady_nameLedDecl hi
  | declarationBody _ => exact steady_declarationBody hi _
  | membersBody _ _ => exact steady_membersBody hi _ _
  | declarationStatement _ => exact steady_declarationStatement _
  | expressionStatement => exact steady_expressionStatement hi
  | condition _ => exact steady_condition hi _
  | ifStatement _ => exact steady_ifStatement hi _
  | whileStatement _ => exact steady_whileStatement hi _
  | doStatement _ => exact steady_doStatement hi _
  | rangeHeader => exact steady_rangeHeader
  | forInit _ => exact steady_forInit hi _
  | forStatement _ => exact steady_forStatement hi _
  | switchCase _ => exact steady_switchCase hi _
  | switchCases _ => exact steady_switchCases hi _
  | switchStatement _ => exact steady_switchStatement hi _
  | returnStatement => exact steady_returnStatement hi
  | breakStatement _ => exact steady_breakStatement _
  | continueStatement _ => exact steady_continueStatement _
  | handlerException => exact steady_handlerException hi
  | handler _ => exact (round_handler hi _).toSteady
  | tryStatement _ => exact steady_tryStatement hi _
  | closedBlock _ => exact steady_closedBlock hi _
  | throwStatement _ => exact steady_throwStatement hi _
  | assertStatement => exact steady_assertStatement hi
  | asmStatement => exact steady_asmStatement
  | lockStatement _ _ => exact steady_lockStatement hi _ _
  | blockStatement _ => exact steady_blockStatement hi _
  | keywordStatement _ => exact steady_keywordStatement hi _
  | plainStatement _ => exact steady_plainStatement hi _
  | blockItem _ => exact steady_blockItem hi _
  | itemsBody _ => exact steady_itemsBody hi _
  | statementBody _ => exact steady_statementBody hi _
  | topLevelItem _ => exact steady_topLevelItem hi _
  | programOver _ => exact steady_programOver hi _

/-! ## The loops of bodies -/

/-- Every round of the loops over programs, member bodies, struct bodies, blocks and switches ends its
loop in front of the closing token or at the end of the text, or moves the cursor on. -/
structure BodiesGetOn (config : Config) (inner : Level) : Prop where
  program : BodyRound .eof (bodyRound .eof (topLevelItem config inner))
  members (context : Context) (what : String) :
    BodyRound .rightBrace (bodyRound .rightBrace (memberItem inner context what))
  struct : BodyRound .rightBrace (bodyRound .rightBrace (structFields inner))
  block (context : Context) :
    BodyRound .rightBrace (bodyRound .rightBrace (blockItem inner context))
  switch (context : Context) (cases : List Case) :
    BodyRound .rightBrace (switchRound inner context cases)

theorem bodiesGetOn (config : Config) {inner : Level} (hi : inner.Steady) :
    BodiesGetOn config inner where
  program := bodyRound_gets_on (steady_topLevelItem hi config) _
  members context what := bodyRound_gets_on (steady_memberItem hi context what) _
  struct := bodyRound_gets_on (steady_structFields hi) _
  block context := bodyRound_gets_on (steady_blockItem hi context) _
  switch context cases := switchRound_gets_on hi context cases

/-- With steps to spare, a loop ends where a round gives nothing. -/
theorem many_ends {α : Type} {noted : Prop} {p : Parser (Option α)} (h : Round noted p) {s : State}
    (hs : s.Ample s.bound) :
    After (many p) s fun _ s' => ∃ s₁, (p s₁).1 = none ∧ (p s₁).2 = s' := by
  have run : ∀ fuel (s : State), s.weight < fuel →
      ∃ s₁, (p s₁).1 = none ∧ (p s₁).2 = (manyUpTo fuel p s).2 := by
    intro fuel
    induction fuel with
    | zero => intro s hs; omega
    | succ fuel ih =>
      intro s hs
      rw [manyUpTo_succ]
      cases ho : (p s).1 with
      | none => exact ⟨s, ho, rfl⟩
      | some a =>
        have hlt := h.weight_lt ho
        exact ih (p s).2 (by omega)
  unfold State.Ample at hs
  exact run s.bound s (by omega)

/-- Behind a program the cursor stands at the end of the text. -/
theorem programOver_ends (config : Config) {inner : Level} (hi : inner.Steady) {s : State}
    (hs : s.Ample s.bound) :
    After (programOver config inner) s fun _ s' => s'.current.kind = .eof := by
  have gets := (bodiesGetOn config hi).program
  have round := gets.round (steady_bodyRound (steady_topLevelItem hi config) _)
  refine .here <| .bind <| (many_ends round hs).andThen fun groups s₁ h₁ => .pure <| .get <| .pure ?_
  obtain ⟨s₂, hnone, rfl⟩ := h₁
  rcases gets s₂ with ⟨_, hsame, hend⟩ | ⟨hsome, _⟩
  · have hs : (bodyRound .eof (topLevelItem config inner) s₂).2 = s₂ := hsame
    rw [hs]
    exact hend.elim id id
  · rw [hnone] at hsome
    exact absurd hsome Bool.false_ne_true

/-! ## Programs -/

theorem programAndErrors_eq (config : Config) (s : State) :
    programAndErrors config s =
      (((program config s).1, (program config s).2.errors),
        { (program config s).2 with errors := .empty config.maxErrors }) := rfl

theorem steady_program (config : Config) : Steady True (program config) :=
  steady_programOver (counted_steady _ _) config

/-- At the end of the text there is no program and nothing to report. -/
theorem program_eof (config : Config) {s : State} (hk : s.current.kind = .eof) (hb : 0 < s.bound) :
    After (program config) s fun p s' => p.declarations = [] ∧ s' = s := by
  obtain ⟨fuel, hfuel⟩ : ∃ fuel, s.bound = fuel + 1 := ⟨s.bound - 1, by omega⟩
  have round : ∀ item : Parser (List Decl), bodyRound .eof item s = (none, s) := by
    intro item
    have h : After (bodyRound .eof item) s fun o s' => o = none ∧ s' = s :=
      .checkOrEnd_cases (fun _ => .pure ⟨rfl, rfl⟩) fun hne _ => absurd hk hne
    exact Prod.ext h.1 h.2
  have items : ∀ item : Parser (List Decl), many (bodyRound .eof item) s = ([], s) := by
    intro item
    show manyUpTo s.bound (bodyRound .eof item) s = _
    rw [hfuel, manyUpTo_succ, round]
  refine .here <| .bind <| .andThen (Q := fun groups s' => groups = [] ∧ s' = s) ?_ ?_
  · show (many _ s).1 = [] ∧ (many _ s).2 = s
    rw [items]
    exact ⟨rfl, rfl⟩
  · rintro _ _ ⟨rfl, rfl⟩
    exact .pure <| .get <| .pure ⟨rfl, rfl⟩

end FluxFront.Grammar

namespace FluxFront

open Grammar

/-- Every list of tokens is read to its end.  More steps for the loops would change nothing, nor would
more levels or one less; each round of a body loop moves the cursor on or ends the loop; no function of the
grammar moves the cursor back; and behind the parse the text has ended, nothing is nested or skimmed any
more, and a second parse finds no declarations and nothing to report. -/
theorem parse_gets_on (config : Config) (tokens : List Token) :
    (∀ n, (State.ofTokens tokens config.maxErrors).bound ≤ n →
      programAndErrors config ((State.ofTokens tokens config.maxErrors).rebound n) =
        ((programAndErrors config (.ofTokens tokens config.maxErrors)).1,
          (programAndErrors config (.ofTokens tokens config.maxErrors)).2.rebound n))
    ∧ (∀ fuel, config.maxNestingDepth ≤ fuel →
        programOver config (counted config.maxNestingDepth fuel) (.ofTokens tokens config.maxErrors) =
          program config (.ofTokens tokens config.maxErrors))
    ∧ (∀ limit fuel, BodiesGetOn config (counted limit fuel))
    ∧ (∀ limit fuel {α : Type} (p : Parser α), Production (counted limit fuel) p →
        ∀ s, s.position ≤ (p s).2.position)
    ∧ After (programAndErrors config) (.ofTokens tokens config.maxErrors) fun _ s =>
        s.current.kind = .eof ∧ s.depth = 0 ∧ s.skimming = false
          ∧ After (programAndErrors config) s fun again _ =>
              again.1.declarations = [] ∧ again.2 = .empty config.maxErrors := by
  have hs := State.ofTokens_ample tokens config.maxErrors
  refine ⟨fun n hn => ?_, fun fuel hfuel => ?_, fun limit fuel => ?_, fun limit fuel α p hp s => ?_, ?_⟩
  · have hn' : (State.ofTokens tokens config.maxErrors).Ample n := Nat.lt_of_lt_of_le hs hn
    rw [programAndErrors_eq, (steady_program config).rebound _ n hs hn']
    rfl
  · rw [programOver_counted config hfuel rfl rfl, program_ofTokens]
  · exact bodiesGetOn config (counted_steady limit fuel)
  · exact ((hp.steady (counted_steady limit fuel)).forward s).position
  · have hend : (program config (.ofTokens tokens config.maxErrors)).2.current.kind = .eof :=
      programOver_ends config (counted_steady _ _) hs
    have hsince := ((steady_program config).moves (.ofTokens tokens config.maxErrors)).since
    have hbound := (steady_program config).bound_eq (.ofTokens tokens config.maxErrors)
    have hpos : 0 < (program config (.ofTokens tokens config.maxErrors)).2.bound := by
      rw [hbound]
      exact Nat.succ_pos _
    -- the state handed over is still at the end, now without errors
    have hagain := program_eof config (s := (programAndErrors config (.ofTokens tokens _)).2) hend hpos
    refine ⟨hend, hsince.depth, hsince.skimming, hagain.1, ?_⟩
    rw [programAndErrors_eq]
    exact congrArg State.errors hagain.2

end FluxFront
