import FluxFront.Proofs.MirrorTrees
import FluxFront.Proofs.ProgramProductions

/-!
# Productions do not look at places

Every production is a mirror of itself.  Most proofs name the production and leave the rest to the
instances for its parts; the others are those of productions that look at a token, a type, an expression
or the cases of a switch, and show that what they see there has no place in it.

* **Specification**: tokens that are alike give programs and errors that are alike
  (`parseTokens_alike`), whatever grounds their spans stand on.
* **Levels**: the induction is on the room for nesting, as everywhere: a level over a mirror of itself
  is a mirror of itself (`MirrorLevel`).
-/

set_option synthInstance.maxSize 1000

namespace FluxFront.Grammar

open Token (Kind)

variable {G : Grounds}

/-! ## Types -/

instance : Mirrors G segment? segment? := by
  unfold segment?
  infer_instance

instance (expected : String) : Mirrors G (qualifiedName expected) (qualifiedName expected) := by
  unfold qualifiedName
  infer_instance

instance : Mirrors G qualifiers qualifiers := by
  have hstep : ∀ q, Mirrors G (qualifier? q) (qualifier? q) := fun q => by
    refine .andThenPlain inferInstance fun o => ?_
    split <;> infer_instance
  unfold qualifiers
  infer_instance

instance : Mirrors G bitWidth bitWidth := by
  have hvalue : ∀ literal : Option Token.Value, Mirrors G (match literal with
      | some (.int width) => pure width
      | _ => pure 0 : Parser UInt64) (match literal with
      | some (.int width) => pure width
      | _ => pure 0) := fun literal => by
    split <;> infer_instance
  unfold bitWidth
  infer_instance

instance : Mirrors G dataLayout dataLayout := by
  unfold dataLayout
  infer_instance

instance (builtin : Builtin) : Mirrors G (builtinType builtin) (builtinType builtin) := by
  unfold builtinType
  infer_instance

section Types

variable {type : Parser Ty} [Mirrors G type type] {start start' : Location} [AlikeOn G start start']
  {t t' : Ty} [AlikeOn G t t']

instance (close : Kind) : Mirrors G (typeList type close) (typeList type close) := by
  unfold typeList
  infer_instance

instance : Mirrors G (resultType type) (resultType type) := by
  unfold resultType
  infer_instance

instance : Mirrors G (functionType type) (functionType type) := by
  unfold functionType
  infer_instance

instance : Mirrors G (namedType type) (namedType type) := by
  unfold namedType
  dsimp only
  infer_instance

instance : Mirrors G (baseType type) (baseType type) := by
  refine .andThenPlain inferInstance fun k => ?_
  split
  case h_11 =>
    refine .andThenToken inferInstance fun w => ?_
    rw [Mirrors.describe_moved w.first w.second.span]
    infer_instance
  all_goals infer_instance

instance : Mirrors G (pointerTo t start) (pointerTo t' start') := by
  unfold pointerTo
  infer_instance

instance {size : Parser Expr} [Mirrors G size size] :
    Mirrors G (modifiedType? size start t) (modifiedType? size start' t') := by
  refine .andThenPlain inferInstance fun k => ?_
  dsimp only
  split <;> infer_instance

instance {size : Parser Expr} [Mirrors G size size] :
    Mirrors G (typeBody size type) (typeBody size type) := by
  unfold typeBody
  infer_instance

instance : Mirrors G skippedSize skippedSize := by
  unfold skippedSize
  infer_instance

end Types

/-! ## Levels -/

/-- A level whose entries do not look at places. -/
class MirrorLevel (G : Grounds) (l : Level) : Prop where
  steady : l.Steady
  type : Mirrors G l.type l.type
  skim : Mirrors G l.skim l.skim
  expression : Mirrors G l.expression l.expression
  conditional : Mirrors G l.conditional l.conditional
  power : Mirrors G l.power l.power
  unary : Mirrors G l.unary l.unary
  statement (context : Context) : Mirrors G (l.statement context) (l.statement context)
  items (context : Context) : Mirrors G (l.items context) (l.items context)
  members (context : Context) (what : String) :
    Mirrors G (l.members context what) (l.members context what)
  declaration (context : Context) : Mirrors G (l.declaration context) (l.declaration context)

attribute [instance] MirrorLevel.type MirrorLevel.skim MirrorLevel.expression
  MirrorLevel.conditional MirrorLevel.power MirrorLevel.unary MirrorLevel.statement MirrorLevel.items
  MirrorLevel.members MirrorLevel.declaration

section Productions

variable {inner : Level} [hi : MirrorLevel G inner] {start start' : Location} [AlikeOn G start start']

instance (context : Context) : Mirrors G (block inner context) (block inner context) := by
  refine .andThen inferInstance fun start => .andThenPlain inferInstance fun accepted => ?_
  split
  · exact .andThenOption inferInstance inferInstance inferInstance
  · infer_instance

instance : Mirrors G asmBody asmBody := by
  have hraw : ∀ w : Both G Token,
      asmBody.rawText (w.first.moved w.second.span) = asmBody.rawText w.first := fun _ => rfl
  refine .andThenToken inferInstance fun _ => .andThenPlain inferInstance fun k => ?_
  split
  · refine .andThenToken inferInstance fun w => ?_
    rw [hraw]
    infer_instance
  · refine .andThenToken inferInstance fun w => ?_
    rw [hraw]
    infer_instance
  · infer_instance

/-! ## Expressions -/

instance (close : Kind) : Mirrors G (arguments inner close) (arguments inner close) := by
  unfold arguments
  infer_instance

instance : Mirrors G literal literal := by
  refine .andThen inferInstance fun start => .andThenToken inferInstance fun w => ?_
  have hliteral : literalOf (w.first.moved w.second.span) = literalOf w.first := rfl
  rw [hliteral]
  infer_instance

theorem startsCastOperand_eq {t t' : Ty} (h : AlikeOn G t t') (next : Kind) :
    startsCastOperand t next = startsCastOperand t' next := by
  have hrespan : ∀ (m : Span → Span) (t : Ty),
      startsCastOperand (respan m t) next = startsCastOperand t next := by
    intro m t
    obtain ⟨form, span, id⟩ := t
    cases form <;> rfl
  rw [← hrespan G.cover t, h.eq, eraseSpans, hrespan]

instance : Mirrors G (castAhead inner) (castAhead inner) := by
  refine .probe (probe_castAhead hi.steady.skim) (.get fun h => ?_)
  rw [h.failures]
  refine .andThenToken inferInstance fun _ => .andThenPlain inferInstance fun b => ?_
  split
  · refine .andThen inferInstance fun target => .get fun h => ?_
    rw [h.failures]
    have := startsCastOperand_eq target.alike
    dsimp only
    simp only [this]
    infer_instance
  · infer_instance

instance : Mirrors G (groupOrCast inner) (groupOrCast inner) := by
  unfold groupOrCast
  infer_instance

instance : Mirrors G (sizeOfExpr inner) (sizeOfExpr inner) := by
  unfold sizeOfExpr
  infer_instance

instance : Mirrors G (typeOfExpr inner) (typeOfExpr inner) := by
  unfold typeOfExpr
  infer_instance

instance : Mirrors G (opExpr inner) (opExpr inner) := by
  unfold opExpr
  dsimp only
  infer_instance

instance : Mirrors G (interpolatedValues inner) (interpolatedValues inner) := by
  have hstep : ∀ w : Both G (List Expr × Bool), Mirrors G (do
      let (values, stalled) := w.first
      if stalled || (← checkOrEnd .rightBrace) then return none
      else
        let before ← position
        let value ← inner.expression
        consume .semicolon "Expected ';' after interpolated value"
        return some (values ++ [value], (← position) == before)) (do
      let (values, stalled) := w.second
      if stalled || (← checkOrEnd .rightBrace) then return none
      else
        let before ← position
        let value ← inner.expression
        consume .semicolon "Expected ';' after interpolated value"
        return some (values ++ [value], (← position) == before)) := by
    intro w
    obtain ⟨hvalues, hstalled⟩ := AlikeOn.prod_iff.1 w.alike
    have hsame := hstalled.eq_of_plain
    dsimp only
    rw [hsame]
    infer_instance
  refine .andThen (p := iterate _ _) inferInstance fun w => ?_
  have := (AlikeOn.prod_iff.1 w.alike).1
  exact (inferInstance : Mirrors G (pure w.first.1) (pure w.second.1))

instance : Mirrors G (interpolatedString inner) (interpolatedString inner) := by
  refine .andThen inferInstance fun start => .andThenToken inferInstance fun w => ?_
  have hparts : partsOf (w.first.moved w.second.span) = partsOf w.first := rfl
  rw [hparts]
  generalize partsOf w.first = parts
  -- both runs have as many values, so they agree on whether that is reported
  have hfinish : ∀ values : Both G (List Expr), Mirrors G (do
      let expr ← node (Expr.mk (.interpolated parts values.first)) start.first
      if parts.length - 1 != values.first.length then
        reportStructural .interpolationMismatch
          ("Interpolated string has " ++ toString (parts.length - 1) ++ " placeholder(s) but "
            ++ toString values.first.length ++ " value(s)") expr.span
      return expr) (do
      let expr ← node (Expr.mk (.interpolated parts values.second)) start.second
      if parts.length - 1 != values.second.length then
        reportStructural .interpolationMismatch
          ("Interpolated string has " ++ toString (parts.length - 1) ++ " placeholder(s) but "
            ++ toString values.second.length ++ " value(s)") expr.span
      return expr) := by
    intro values
    rw [values.alike.length_eq]
    infer_instance
  dsimp only at hfinish ⊢
  infer_instance

instance : Mirrors G (arrayExpr inner) (arrayExpr inner) := by
  unfold arrayExpr
  infer_instance

instance : Mirrors G (dictionaryEntry inner) (dictionaryEntry inner) := by
  unfold dictionaryEntry
  infer_instance

theorem colonAhead_eq {ts ts' : List Token} (h : ts.map Token.kind = ts'.map Token.kind)
    (depth conditionals : Nat) (last : Kind) :
    colonAhead depth conditionals last ts = colonAhead depth conditionals last ts' := by
  induction ts generalizing ts' depth conditionals last with
  | nil =>
    obtain rfl : ts' = [] := by simpa using h.symm
    rfl
  | cons t ts ih =>
    cases ts' with
    | nil => simp at h
    | cons t' ts' =>
      obtain ⟨hkind, hrest⟩ := List.cons.inj h
      unfold colonAhead
      rw [hkind]
      simp only [ih hrest]

theorem dictionaryAhead_eq {s s' : State} (h : s.Alike G s') :
    dictionaryAhead s = dictionaryAhead s' := by
  have hdrop : (s.rest.drop 1).map Token.kind = (s'.rest.drop 1).map Token.kind := by
    rw [List.map_drop, List.map_drop, h.kinds]
  unfold dictionaryAhead
  rw [h.kindAt, colonAhead_eq hdrop]

instance : Mirrors G (braceExpr inner) (braceExpr inner) := by
  refine .andThen inferInstance fun start => .andThenPlain inferInstance fun k => ?_
  split
  · infer_instance
  · refine .get fun h => ?_
    rw [dictionaryAhead_eq h]
    infer_instance

instance : Mirrors G missingExpr missingExpr := by
  refine .andThenToken inferInstance fun w => ?_
  rw [Mirrors.describe_moved w.first w.second.span]
  infer_instance

instance : Mirrors G (primary inner) (primary inner) := by
  refine .andThenPlain inferInstance fun k => ?_
  split <;> infer_instance

section

variable {e e' : Expr} [AlikeOn G e e']

instance : Mirrors G (chained? inner start e) (chained? inner start' e') := by
  refine .andThenPlain inferInstance fun k => ?_
  dsimp only
  split <;> infer_instance

instance : Mirrors G (callChain inner) (callChain inner) := by
  unfold callChain
  infer_instance

instance : Mirrors G (trailed? start e) (trailed? start' e') := by
  refine .andThenPlain inferInstance fun k => ?_
  split <;> infer_instance

instance : Mirrors G (trailing inner) (trailing inner) := by
  unfold trailing
  infer_instance

instance : Mirrors G (unaryBody inner) (unaryBody inner) := by
  refine .andThen inferInstance fun start => .andThenPlain inferInstance fun k => ?_
  split
  · infer_instance
  · split <;> infer_instance

instance : Mirrors G (powerBody inner) (powerBody inner) := by
  unfold powerBody
  infer_instance

instance {operand : Parser Expr} [Mirrors G operand operand] (operators : List Kind) :
    Mirrors G (joined? operators operand start e) (joined? operators operand start' e') := by
  refine .andThenPlain inferInstance fun k => ?_
  split <;> infer_instance

end

instance {operand : Parser Expr} [Mirrors G operand operand] (operators : List Kind) :
    Mirrors G (leftAssociative operators operand) (leftAssociative operators operand) := by
  unfold leftAssociative
  infer_instance

instance : Mirrors G (binaryBody inner) (binaryBody inner) := by
  have hall : ∀ ps : List (List Kind), Mirrors G (ps.foldr leftAssociative (powerBody inner))
      (ps.foldr leftAssociative (powerBody inner)) := by
    intro ps
    induction ps with
    | nil => exact (inferInstance : Mirrors G (powerBody inner) (powerBody inner))
    | cons p ps ih =>
      rw [List.foldr_cons]
      infer_instance
  exact hall operatorLevels

instance : Mirrors G (conditionalBody inner) (conditionalBody inner) := by
  unfold conditionalBody
  infer_instance

instance : Mirrors G (expressionBody inner) (expressionBody inner) := by
  refine .andThen inferInstance fun start => .andThen inferInstance fun target => ?_
  have hassignable : target.first.isAssignable = target.second.isAssignable := by
    rw [← Expr.isAssignable_respan G.cover, target.alike.eq, eraseSpans, Expr.isAssignable_respan]
  refine .andThenPlain inferInstance fun k => ?_
  dsimp only
  rw [hassignable]
  split <;> infer_instance

/-! ## Declarations -/

instance (place : String) : Mirrors G (reportNoDeclaration place) (reportNoDeclaration place) := by
  refine .andThenToken inferInstance fun w => ?_
  rw [Mirrors.describe_moved w.first w.second.span]
  infer_instance

instance (context : Context) (what : String) :
    Mirrors G (memberBody inner context what) (memberBody inner context what) :=
  .andThenPlain inferInstance fun _ => .andThenOption inferInstance inferInstance inferInstance

instance : Mirrors G (namespaceDecl inner) (namespaceDecl inner) := by
  unfold namespaceDecl
  dsimp only
  infer_instance

instance (isClass : Bool) : Mirrors G (inheritanceEntry isClass) (inheritanceEntry isClass) := by
  unfold inheritanceEntry
  dsimp only
  infer_instance

instance : Mirrors G (classOrObject inner) (classOrObject inner) := by
  unfold classOrObject
  dsimp only
  infer_instance

/-- A copy has the spans of its original, and its identities do not depend on them. -/
theorem freshCopy_alike {t t' : Ty} (h : AlikeOn G t t') (first : NodeId) :
    AlikeOn G (t.edit Edit.freshCopy first).1 (t'.edit Edit.freshCopy first).1 ∧
      (t.edit Edit.freshCopy first).2 = (t'.edit Edit.freshCopy first).2 := by
  have hcopy : ∀ (m : Span → Span) (t : Ty), (respan m t).edit Edit.freshCopy first
      = (respan m (t.edit Edit.freshCopy first).1, (t.edit Edit.freshCopy first).2) := fun m t =>
    congrFun (Ty.respan_edit (Edit.freshCopy_commutes m) t) first
  have hboth := hcopy G.cover t
  rw [h.eq, eraseSpans, hcopy, Prod.mk.injEq] at hboth
  exact ⟨⟨hboth.1.symm⟩, hboth.2.symm⟩

instance {t t' : Ty} [h : AlikeOn G t t'] : Mirrors G (duplicateType t) (duplicateType t') where
  run {s s'} hs := by
    obtain ⟨hcopy, hnext⟩ := freshCopy_alike h s.nextId
    rw [hs.nextId] at hcopy hnext
    refine ⟨?_, { hs with nextId := ?_ }⟩
    · show AlikeOn G ((t.edit Edit.freshCopy) s.nextId).1 ((t'.edit Edit.freshCopy) s'.nextId).1
      rw [hs.nextId]
      exact hcopy
    · show ((t.edit Edit.freshCopy) s.nextId).2 = ((t'.edit Edit.freshCopy) s'.nextId).2
      rw [hs.nextId]
      exact hnext

instance : Mirrors G (structFields inner) (structFields inner) := by
  unfold structFields
  infer_instance

instance : Mirrors G (structDecl inner) (structDecl inner) := by
  unfold structDecl
  infer_instance

instance : Mirrors G (parameter inner) (parameter inner) := by
  unfold parameter
  infer_instance

instance : Mirrors G (parameters inner) (parameters inner) := by
  unfold parameters
  dsimp only
  infer_instance

instance (context : Context) : Mirrors G (functionDecl inner context) (functionDecl inner context) := by
  unfold functionDecl
  dsimp only
  infer_instance

instance (context : Context) : Mirrors G (operatorDecl inner context) (operatorDecl inner context) := by
  unfold operatorDecl
  dsimp only
  infer_instance

instance : Mirrors G importPath importPath := by
  refine .andThenPlain inferInstance fun b => ?_
  split
  · refine .andThenToken inferInstance fun token => ?_
    dsimp only [Token.moved]
    split <;> infer_instance
  · infer_instance

instance : Mirrors G importDecl importDecl := by
  unfold importDecl
  dsimp only
  infer_instance

instance : Mirrors G usingDecl usingDecl := by
  unfold usingDecl
  infer_instance

instance : Mirrors G (enumMember inner) (enumMember inner) := by
  unfold enumMember
  dsimp only
  infer_instance

instance : Mirrors G (enumDecl inner) (enumDecl inner) := by
  unfold enumDecl
  infer_instance

instance : Mirrors G (typeAlias inner) (typeAlias inner) := by
  unfold typeAlias
  infer_instance

instance : Mirrors G asmDecl asmDecl := by
  unfold asmDecl
  infer_instance

instance : Mirrors G dataDecl dataDecl := by
  unfold dataDecl
  infer_instance

instance : Mirrors G templateParams templateParams := by
  unfold templateParams
  dsimp only
  infer_instance

instance {span span' : Span} [AlikeOn G span span'] :
    Mirrors G (placeholderStatement span) (placeholderStatement span') := by
  unfold placeholderStatement
  infer_instance

instance (context : Context) : Mirrors G (templateDecl inner context) (templateDecl inner context) := by
  refine .andThen inferInstance fun start => .andThenToken inferInstance fun _ => ?_
  refine .andThenPlain inferInstance fun params => ?_
  dsimp only
  exact .andThenOption inferInstance inferInstance inferInstance

/-- What a pointer type points to. -/
def pointee? : Ty.Form → Option (Ty × Qualifiers)
  | .pointer pointee qualifiers => some (pointee, qualifiers)
  | _ => none

theorem eq_pointer {form : Ty.Form} {x : Ty × Qualifiers} (h : pointee? form = some x) :
    form = .pointer x.1 x.2 := by
  cases form <;> cases h
  rfl

theorem pointee?_alike {form form' : Ty.Form} (h : AlikeOn G form form') :
    AlikeOn G (pointee? form) (pointee? form') :=
  h.congr fun _ form => by cases form <;> rfl

theorem finishFunctionPointer_none {t : Ty} (h : pointee? t.form = none) :
    finishFunctionPointer inner t = pure t := by
  unfold finishFunctionPointer
  split
  · rename_i hform
    rw [hform] at h
    cases h
  · rfl

instance {t t' : Ty} [h : AlikeOn G t t'] :
    Mirrors G (finishFunctionPointer inner t) (finishFunctionPointer inner t') := by
  rcases (pointee?_alike h.ty_form).option_cases with ⟨hnone, hnone'⟩ | ⟨w, hsome, hsome'⟩
  · rw [finishFunctionPointer_none hnone, finishFunctionPointer_none hnone']
    infer_instance
  · obtain ⟨hpointee, hqualifiers⟩ := AlikeOn.prod_iff.1 w.alike
    unfold finishFunctionPointer
    rw [eq_pointer hsome, eq_pointer hsome', h.ty_id, hqualifiers.eq_of_plain]
    infer_instance

section

variable {t t' : Ty} [AlikeOn G t t'] {args args' : Option (List Expr)} [AlikeOn G args args']

instance (qualifiers : Qualifiers) (name : String) :
    Mirrors G (declarator inner start qualifiers t name args)
      (declarator inner start' qualifiers t' name args') := by
  unfold declarator
  dsimp only
  infer_instance

instance (qualifiers : Qualifiers) (name : String) :
    Mirrors G (finishVariables inner start qualifiers t name args)
      (finishVariables inner start' qualifiers t' name args') := by
  unfold finishVariables
  infer_instance

end

instance : Mirrors G (variableDecl inner) (variableDecl inner) := by
  unfold variableDecl
  infer_instance

instance : Mirrors G instantiationFollows instantiationFollows := by
  unfold instantiationFollows
  dsimp only
  infer_instance

theorem declaratorFollows_eq {t t' : Ty} (h : AlikeOn G t t') (next : Kind) :
    declaratorFollows t next = declaratorFollows t' next := by
  have hrespan : ∀ (m : Span → Span) (t : Ty),
      declaratorFollows (respan m t) next = declaratorFollows t next := by
    intro m t
    obtain ⟨form, span, id⟩ := t
    cases form <;> rfl
  rw [← hrespan G.cover t, h.eq, eraseSpans, hrespan]

instance : Mirrors G (declaratorForm inner) (declaratorForm inner) := by
  refine .probe (probe_declaratorForm hi.steady.skim) (.get fun h => ?_)
  rw [h.failures]
  refine .andThen inferInstance fun type => .get fun h => ?_
  rw [h.failures]
  simp only [declaratorFollows_eq type.alike]
  infer_instance

instance : Mirrors G (instantiationArgs inner) (instantiationArgs inner) := by
  unfold instantiationArgs
  infer_instance

instance : Mirrors G (nameLedDecl inner) (nameLedDecl inner) := by
  refine .andThenPlain inferInstance fun form => ?_
  cases form with
  | none => infer_instance
  | some form =>
    refine .andThen inferInstance fun start => .andThenPlain inferInstance fun before => ?_
    refine .andThen inferInstance fun type => ?_
    cases form <;> infer_instance

theorem dataDeclAhead_eq {s s' : State} (h : s.Alike G s') : dataDeclAhead s = dataDeclAhead s' := by
  unfold dataDeclAhead
  simp only [h.kindAt]

instance (context : Context) :
    Mirrors G (declarationBody inner context) (declarationBody inner context) := by
  have hone : ∀ {decl : Parser Decl} [Mirrors G decl decl],
      Mirrors G (declarationBody.one decl) (declarationBody.one decl) := fun {_} _ => by
    unfold declarationBody.one
    infer_instance
  refine .get fun h => ?_
  rw [h.currentKind, h.kindAt, dataDeclAhead_eq h]
  dsimp only
  split <;> infer_instance

instance (context : Context) (what : String) :
    Mirrors G (membersBody inner context what) (membersBody inner context what) := by
  have hitem : Mirrors G (memberItem inner context what) (memberItem inner context what) :=
    .andThenOption inferInstance inferInstance inferInstance
  unfold membersBody
  infer_instance

/-! ## Statements -/

/-- The variable that a declaration declares. -/
def variableOf? : Decl.Form → Option Variable
  | .variable var => some var
  | _ => none

theorem eq_variable {form : Decl.Form} {v : Variable} (h : variableOf? form = some v) :
    form = .variable v := by
  cases form <;> cases h
  rfl

theorem variableOf?_alike {form form' : Decl.Form} (h : AlikeOn G form form') :
    AlikeOn G (variableOf? form) (variableOf? form') :=
  h.congr fun _ form => by
    cases form <;> simp [variableOf?, Decl.Form.respan_eq, Decl.Form.edit, respan_option]

/-- A declaration that is no variable is reported and kept. -/
theorem declarationStatement_none {d : Decl} (h : variableOf? d.form = none) :
    declarationStatement d = (do
      let what := match d.name? with
        | some name => "Declaration of '" ++ name ++ "' is not allowed inside a function body"
        | none => "Declaration is not allowed inside a function body"
      reportStructural .misplacedDeclaration what d.span
      nodeAt (Stmt.mk (.misplaced d)) d.span) := by
  unfold declarationStatement
  split
  · rename_i hform
    rw [hform] at h
    cases h
  · rfl

instance {d d' : Decl} [h : AlikeOn G d d'] :
    Mirrors G (declarationStatement d) (declarationStatement d') := by
  rcases (variableOf?_alike h.decl_form).option_cases with ⟨hnone, hnone'⟩ | ⟨w, hsome, hsome'⟩
  · have hname : d.name? = d'.name? := by
      rw [← Decl.name?_respan G.cover, h.eq, eraseSpans, Decl.name?_respan]
    rw [declarationStatement_none hnone, declarationStatement_none hnone', hname]
    dsimp only
    infer_instance
  · unfold declarationStatement
    rw [eq_variable hsome, eq_variable hsome', h.decl_id]
    infer_instance

instance : Mirrors G (expressionStatement inner) (expressionStatement inner) := by
  unfold expressionStatement
  infer_instance

instance (keyword : String) : Mirrors G (condition inner keyword) (condition inner keyword) := by
  unfold condition
  infer_instance

instance (context : Context) : Mirrors G (ifStatement inner context) (ifStatement inner context) := by
  unfold ifStatement
  dsimp only
  infer_instance

instance (context : Context) :
    Mirrors G (whileStatement inner context) (whileStatement inner context) := by
  unfold whileStatement
  infer_instance

instance (context : Context) : Mirrors G (doStatement inner context) (doStatement inner context) := by
  unfold doStatement
  infer_instance

instance : Mirrors G rangeHeader rangeHeader := by
  refine .attempt steady_rangeNames (.andThenPlain inferInstance fun _ => ?_)
  refine .andThenPlain inferInstance fun ahead => ?_
  split
  · refine .andThenToken inferInstance fun var => .andThenPlain ?_ fun index => ?_
    · infer_instance
    · infer_instance
  · infer_instance

instance (context : Context) : Mirrors G (forInit inner context) (forInit inner context) := by
  refine .andThenPlain inferInstance fun accepted => ?_
  split
  · infer_instance
  · exact .andThenOption inferInstance inferInstance inferInstance

instance (context : Context) : Mirrors G (forStatement inner context) (forStatement inner context) := by
  refine .andThen inferInstance fun start => .andThenToken inferInstance fun _ => ?_
  refine .andThenPlain inferInstance fun _ => .andThenPlain inferInstance fun o => ?_
  dsimp only
  split
  · infer_instance
  · -- the condition may be missing, and behind it the increment
    refine .andThen inferInstance fun init => .andThenPlain inferInstance fun missing => ?_
    split <;> exact .andThen inferInstance fun condition => inferInstance

/-! ### Switches -/

instance (context : Context) : Mirrors G (switchCase inner context) (switchCase inner context) := by
  unfold switchCase
  dsimp only
  infer_instance

theorem isDefault_eq {c c' : Case} (h : AlikeOn G c c') : c.isDefault = c'.isDefault := by
  rw [← Case.isDefault_respan G.cover, h.eq, eraseSpans, Case.isDefault_respan]

theorem anyDefault_eq {cs cs' : List Case} (h : AlikeOn G cs cs') :
    cs.any Case.isDefault = cs'.any Case.isDefault := by
  have hrespan : ∀ (m : Span → Span) (cs : List Case),
      (respan m cs).any Case.isDefault = cs.any Case.isDefault := by
    intro m cs
    rw [respan_list, List.any_map]
    exact congrArg (cs.any ·) (funext (Case.isDefault_respan m))
  rw [← hrespan G.cover, h.eq, eraseSpans, hrespan]

instance (context : Context) {cases cases' : List Case} [h : AlikeOn G cases cases'] :
    Mirrors G (nextCases inner context cases) (nextCases inner context cases') := by
  have hcase : ∀ c : Both G Case, Mirrors G (do
      if c.first.isDefault && cases.any Case.isDefault then
        reportStructural .duplicateDefaultCase
          "Switch statement has more than one default case" c.first.span
      return cases ++ [c.first]) (do
      if c.second.isDefault && cases'.any Case.isDefault then
        reportStructural .duplicateDefaultCase
          "Switch statement has more than one default case" c.second.span
      return cases' ++ [c.second]) := by
    intro c
    rw [isDefault_eq c.alike, anyDefault_eq h]
    infer_instance
  unfold nextCases
  dsimp only at hcase ⊢
  infer_instance

instance (context : Context) : Mirrors G (switchCases inner context) (switchCases inner context) := by
  unfold switchCases switchRound
  infer_instance

instance (context : Context) :
    Mirrors G (switchStatement inner context) (switchStatement inner context) := by
  refine .andThen inferInstance fun start => .andThenToken inferInstance fun _ => ?_
  refine .andThen inferInstance fun subject => .andThenPlain inferInstance fun _ => ?_
  refine .andThen inferInstance fun cases => ?_
  rw [anyDefault_eq cases.alike]
  dsimp only
  infer_instance

/-! ### Jumps, exceptions and locks -/

instance : Mirrors G (returnStatement inner) (returnStatement inner) := by
  unfold returnStatement
  dsimp only
  infer_instance

instance (context : Context) : Mirrors G (breakStatement context) (breakStatement context) := by
  unfold breakStatement
  dsimp only
  infer_instance

instance (context : Context) : Mirrors G (continueStatement context) (continueStatement context) := by
  unfold continueStatement
  dsimp only
  infer_instance

instance : Mirrors G (handlerException inner) (handlerException inner) := by
  unfold handlerException
  dsimp only
  infer_instance

instance (context : Context) : Mirrors G (handler? inner context) (handler? inner context) := by
  have hbody : ∀ (start : Both G Location) (x : Both G (Option Ty × Option String)), Mirrors G (do
      let (exception, binding) := x.first
      let body ← block inner context
      return some { exception, binding, body, span := ← spanFrom start.first : Handler }) (do
      let (exception, binding) := x.second
      let body ← block inner context
      return some { exception, binding, body, span := ← spanFrom start.second : Handler }) := by
    intro start x
    obtain ⟨hexception, hbinding⟩ := AlikeOn.prod_iff.1 x.alike
    have hsame := hbinding.eq_of_plain
    dsimp only
    rw [hsame]
    infer_instance
  unfold handler?
  infer_instance

instance (context : Context) : Mirrors G (tryStatement inner context) (tryStatement inner context) := by
  refine .andThen inferInstance fun start => .andThenToken inferInstance fun _ => ?_
  refine .andThen inferInstance fun body => .andThen inferInstance fun handlers => ?_
  have hempty : handlers.first.isEmpty = handlers.second.isEmpty := by
    rw [Bool.eq_iff_iff, List.isEmpty_iff_length_eq_zero, List.isEmpty_iff_length_eq_zero,
      handlers.alike.length_eq]
  rw [hempty]
  dsimp only
  infer_instance

instance (context : Context) : Mirrors G (closedBlock inner context) (closedBlock inner context) := by
  unfold closedBlock
  infer_instance

instance (context : Context) :
    Mirrors G (throwStatement inner context) (throwStatement inner context) := by
  -- the message without the parentheses around it
  have hungrouped : ∀ w : Both G Expr, AlikeOn G
      (match w.first.form with | .group expr => expr | _ => w.first)
      (match w.second.form with | .group expr => expr | _ => w.second) := by
    intro w
    refine w.alike.congr (f := fun e => match e.form with | .group expr => expr | _ => e) fun _ e => ?_
    obtain ⟨form, _, _⟩ := e
    cases form <;> rfl
  unfold throwStatement
  infer_instance

instance : Mirrors G (assertStatement inner) (assertStatement inner) := by
  unfold assertStatement
  infer_instance

instance : Mirrors G asmStatement asmStatement := by
  unfold asmStatement
  infer_instance

instance (context : Context) (which : LockKind) :
    Mirrors G (lockStatement inner context which) (lockStatement inner context which) := by
  unfold lockStatement
  dsimp only
  infer_instance

instance (context : Context) :
    Mirrors G (blockStatement inner context) (blockStatement inner context) := by
  unfold blockStatement
  infer_instance

/-! ### Items -/

instance (context : Context) :
    Mirrors G (keywordStatement inner context) (keywordStatement inner context) := by
  refine .andThenPlain inferInstance fun k => ?_
  split <;> infer_instance

instance (context : Context) :
    Mirrors G (plainStatement inner context) (plainStatement inner context) :=
  .andThenOption inferInstance inferInstance inferInstance

instance (context : Context) : Mirrors G (blockItem inner context) (blockItem inner context) :=
  .andThenOption inferInstance (.andThenOption inferInstance inferInstance inferInstance)
    inferInstance

instance (context : Context) : Mirrors G (itemsBody inner context) (itemsBody inner context) := by
  unfold itemsBody
  infer_instance

instance (context : Context) :
    Mirrors G (statementBody inner context) (statementBody inner context) := by
  refine .andThen inferInstance fun start => .andThen inferInstance fun statements => ?_
  obtain ⟨statements, statements', h⟩ := statements
  match statements, statements', h with
  | [], [], _ => infer_instance
  | [_], [_], h =>
    have := (AlikeOn.cons_iff.1 h).1
    infer_instance
  | _ :: _ :: _, _ :: _ :: _, h => infer_instance
  | [], _ :: _, h | _ :: _, [], h | [_], _ :: _ :: _, h | _ :: _ :: _, [_], h =>
    exact absurd h.length_eq (by simp)

/-! ## Levels over each other -/

instance : MirrorLevel G (Level.above fun _ => inner) where
  steady := hi.steady.above
  type :=
    (inferInstance : Mirrors G (typeBody inner.expression inner.type)
      (typeBody inner.expression inner.type))
  skim :=
    (inferInstance : Mirrors G (typeBody skippedSize inner.skim) (typeBody skippedSize inner.skim))
  expression := (inferInstance : Mirrors G (expressionBody inner) (expressionBody inner))
  conditional := (inferInstance : Mirrors G (conditionalBody inner) (conditionalBody inner))
  power := (inferInstance : Mirrors G (powerBody inner) (powerBody inner))
  unary := (inferInstance : Mirrors G (unaryBody inner) (unaryBody inner))
  statement context :=
    (inferInstance : Mirrors G (statementBody inner context) (statementBody inner context))
  items context :=
    (inferInstance : Mirrors G (some <$> itemsBody inner context) (some <$> itemsBody inner context))
  members context what :=
    (inferInstance : Mirrors G (some <$> membersBody inner context what)
      (some <$> membersBody inner context what))
  declaration context :=
    (inferInstance : Mirrors G (declarationBody inner context) (declarationBody inner context))

/-! ## Programs -/

instance (config : Config) : Mirrors G (topLevelItem config inner) (topLevelItem config inner) :=
  .andThenOption inferInstance (.andThen inferInstance fun _ => inferInstance) inferInstance

instance (config : Config) : Mirrors G (programOver config inner) (programOver config inner) := by
  refine .andThen inferInstance fun start => .andThen inferInstance fun declarations => .get fun h => ?_
  have hspan := G.join (AlikeOn.place_iff.1 start.alike) (h.lastEnd.max' h.here)
  have := fun span' => (AlikeOn.span_iff.2 hspan : AlikeOn G _ span')
  dsimp only
  infer_instance

end Productions

instance (limit : Nat) : Mirrors G (refuse limit) (refuse limit) := by
  unfold refuse
  infer_instance

instance {α : Type} [Spanned α] (limit : Nat) {build : Span → NodeId → α}
    [AlikeBuild G build build] :
    Mirrors G (refuseNode limit build) (refuseNode limit build) := by
  unfold refuseNode
  infer_instance

instance (limit : Nat) : MirrorLevel G (Level.full limit) where
  steady := Level.full_steady limit
  type := (inferInstance : Mirrors G (refuseNode limit _) (refuseNode limit _))
  skim := (inferInstance : Mirrors G (refuseNode limit _) (refuseNode limit _))
  expression := (inferInstance : Mirrors G (refuseNode limit _) (refuseNode limit _))
  conditional := (inferInstance : Mirrors G (refuseNode limit _) (refuseNode limit _))
  power := (inferInstance : Mirrors G (refuseNode limit _) (refuseNode limit _))
  unary := (inferInstance : Mirrors G (refuseNode limit _) (refuseNode limit _))
  statement _ := by
    unfold Level.full placeholderStatement
    infer_instance
  items _ := by
    unfold Level.full
    infer_instance
  members _ _ := by
    unfold Level.full
    infer_instance
  declaration _ := by
    unfold Level.full
    infer_instance

instance (limit room : Nat) : MirrorLevel G (grammar limit room) := by
  induction room with
  | zero => exact (inferInstance : MirrorLevel G (Level.full limit))
  | succ room ih => exact (inferInstance : MirrorLevel G (Level.above fun _ => grammar limit room))

/-- Nowhere does the grammar look at places. -/
instance (config : Config) : Mirrors G (leveledProgram config) (leveledProgram config) := by
  unfold leveledProgram
  infer_instance

theorem State.alike_ofTokens {tokens tokens' : List Token}
    (hrest : AlikeOn G (closeTokens tokens) (closeTokens tokens'))
    (hhalves : ∀ t ∈ closeTokens tokens, AllowsHalves G t) (maxErrors : Option Nat) :
    (State.ofTokens tokens maxErrors).Alike G (.ofTokens tokens' maxErrors) where
  rest := hrest
  halves := hhalves
  ends := exists_eof_closeTokens tokens
  behind := rfl
  position := rfl
  errors := inferInstanceAs (AlikeOn G ([] : List Diagnostic) [])
  located := List.forall_mem_nil _
  unwarned := rfl
  limit := rfl
  panicking := rfl
  failures := rfl
  nextId := rfl
  lastEnd := .inl rfl
  bound := congrArg (2 * · + 1) hrest.length_eq

end FluxFront.Grammar

namespace FluxFront

/-- Tokens that are alike give trees that are alike and errors that are alike; no error is without a
span, and there are no warnings. -/
theorem parseTokens_alike {G : Grounds} (config : Config) {tokens tokens' : List Token}
    (hrest : AlikeOn G (Grammar.closeTokens tokens) (Grammar.closeTokens tokens'))
    (hhalves : ∀ t ∈ Grammar.closeTokens tokens, Grammar.AllowsHalves G t) :
    AlikeOn G (parseTokens tokens config).program (parseTokens tokens' config).program ∧
      AlikeOn G (parseTokens tokens config).errors.errors (parseTokens tokens' config).errors.errors ∧
      (∀ d ∈ (parseTokens tokens config).errors.errors, d.span.isSome) ∧
      (parseTokens tokens config).errors.warnings = [] := by
  have hmirrors : Grammar.Mirrors G (Grammar.leveledProgram config) (Grammar.leveledProgram config) :=
    inferInstance
  have hrun := hmirrors.run (Grammar.State.alike_ofTokens hrest hhalves config.maxErrors)
  rw [parseTokens_eq rfl, parseTokens_eq rfl]
  exact ⟨hrun.1, hrun.2.errors, hrun.2.located, hrun.2.unwarned⟩

end FluxFront
