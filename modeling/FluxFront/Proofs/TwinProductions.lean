import FluxFront.Grammar.Program
import FluxFront.Proofs.Twins

/-!
# Productions side by side

A production over two levels whose entries are twins gives twins again.  So two grammars that differ in
their lowest level only run side by side for as long as the two lowest levels do.
-/

set_option synthInstance.maxSize 1000

namespace FluxFront.Grammar

open Token (Kind)

variable {L : Likeness}

/-! ## Types -/

instance : Twin L segment? segment? := by
  unfold segment?
  infer_instance

instance (expected : String) : Twin L (qualifiedName expected) (qualifiedName expected) := by
  unfold qualifiedName
  infer_instance

instance : Twin L qualifiers qualifiers := by
  have hstep : ∀ q, Twin L (qualifier? q) (qualifier? q) := fun q => by
    refine .andThen inferInstance fun o => ?_
    split <;> infer_instance
  unfold qualifiers
  infer_instance

instance : Twin L bitWidth bitWidth := by
  have hvalue : ∀ token : Token, Twin L (match token.literal with
      | some (.int width) => pure width
      | _ => pure 0) (match token.literal with
      | some (.int width) => pure width
      | _ => pure 0 : Parser UInt64) := fun token => by
    split <;> infer_instance
  unfold bitWidth
  infer_instance

instance : Twin L dataLayout dataLayout := by
  unfold dataLayout
  infer_instance

instance (builtin : Builtin) : Twin L (builtinType builtin) (builtinType builtin) := by
  unfold builtinType
  infer_instance

section Types

variable {type type' : Parser Ty} [Twin L type type']

instance (close : Kind) : Twin L (typeList type close) (typeList type' close) := by
  unfold typeList
  infer_instance

instance : Twin L (resultType type) (resultType type') := by
  unfold resultType
  infer_instance

instance : Twin L (functionType type) (functionType type') := by
  unfold functionType
  infer_instance

instance : Twin L (namedType type) (namedType type') := by
  unfold namedType
  dsimp only
  infer_instance

instance : Twin L (baseType type) (baseType type') := by
  have hreport := Twin.report (L := L) .expectedType nofun
  refine .andThen inferInstance fun k => ?_
  split <;> infer_instance

instance (pointee : Ty) (start : Location) : Twin L (pointerTo pointee start) (pointerTo pointee start) := by
  unfold pointerTo
  infer_instance

instance {size size' : Parser Expr} [Twin L size size'] (start : Location) (t : Ty) :
    Twin L (modifiedType? size start t) (modifiedType? size' start t) := by
  refine .andThen inferInstance fun k => ?_
  dsimp only
  split <;> infer_instance

instance {size size' : Parser Expr} [Twin L size size'] :
    Twin L (typeBody size type) (typeBody size' type') := by
  unfold typeBody
  infer_instance

instance : Twin L skippedSize skippedSize := by
  unfold skippedSize
  infer_instance

end Types

/-! ## Levels -/

/-- Two levels whose entries are twins. -/
class TwinLevel (L : Likeness) (l l' : Level) : Prop where
  type : Twin L l.type l'.type
  skim : Twin L l.skim l'.skim
  expression : Twin L l.expression l'.expression
  conditional : Twin L l.conditional l'.conditional
  power : Twin L l.power l'.power
  unary : Twin L l.unary l'.unary
  statement (context : Context) : Twin L (l.statement context) (l'.statement context)
  items (context : Context) : Twin L (l.items context) (l'.items context)
  members (context : Context) (what : String) : Twin L (l.members context what) (l'.members context what)
  declaration (context : Context) : Twin L (l.declaration context) (l'.declaration context)

attribute [instance] TwinLevel.type TwinLevel.skim TwinLevel.expression TwinLevel.conditional
  TwinLevel.power TwinLevel.unary TwinLevel.statement TwinLevel.items TwinLevel.members
  TwinLevel.declaration

section Productions

variable {inner inner' : Level} [TwinLevel L inner inner']

instance (context : Context) : Twin L (block inner context) (block inner' context) := by
  refine .andThen inferInstance fun start => .andThen inferInstance fun accepted => ?_
  split
  · refine .andThen inferInstance fun o => ?_
    cases o <;> infer_instance
  · infer_instance

instance : Twin L asmBody asmBody := by
  refine .andThen inferInstance fun _ => .andThen inferInstance fun k => ?_
  split <;> infer_instance

/-! ## Expressions -/

instance (close : Kind) : Twin L (arguments inner close) (arguments inner' close) := by
  unfold arguments
  infer_instance

instance : Twin L literal literal := by
  unfold literal
  infer_instance

instance : Twin L (castAhead inner) (castAhead inner') := by
  refine .lookAhead (.get (fun _ _ => rfl) fun s => ?_)
  refine .andThen inferInstance fun _ => .andThen inferInstance fun b => ?_
  split
  · refine .andThen inferInstance fun target => .get (fun _ _ => rfl) fun s => ?_
    dsimp only
    infer_instance
  · infer_instance

instance : Twin L (groupOrCast inner) (groupOrCast inner') := by
  unfold groupOrCast
  infer_instance

instance : Twin L (sizeOfExpr inner) (sizeOfExpr inner') := by
  unfold sizeOfExpr
  infer_instance

instance : Twin L (typeOfExpr inner) (typeOfExpr inner') := by
  unfold typeOfExpr
  infer_instance

instance : Twin L (opExpr inner) (opExpr inner') := by
  unfold opExpr
  dsimp only
  infer_instance

instance : Twin L (interpolatedValues inner) (interpolatedValues inner') := by
  unfold interpolatedValues
  infer_instance

instance : Twin L (interpolatedString inner) (interpolatedString inner') := by
  have hreport := Twin.reportStructural (L := L) .interpolationMismatch nofun
  unfold interpolatedString
  dsimp only
  infer_instance

instance : Twin L (arrayExpr inner) (arrayExpr inner') := by
  unfold arrayExpr
  infer_instance

instance : Twin L (dictionaryEntry inner) (dictionaryEntry inner') := by
  unfold dictionaryEntry
  infer_instance

instance : Twin L (braceExpr inner) (braceExpr inner') := by
  refine .andThen inferInstance fun start => .andThen inferInstance fun k => ?_
  split
  · infer_instance
  · exact .get (fun _ _ => rfl) fun s => inferInstance

instance : Twin L missingExpr missingExpr := by
  have hreport := Twin.report (L := L) .expectedExpression nofun
  unfold missingExpr
  infer_instance

instance : Twin L (primary inner) (primary inner') := by
  refine .andThen inferInstance fun k => ?_
  split <;> infer_instance

instance (start : Location) (expr : Expr) :
    Twin L (chained? inner start expr) (chained? inner' start expr) := by
  refine .andThen inferInstance fun k => ?_
  dsimp only
  split <;> infer_instance

instance : Twin L (callChain inner) (callChain inner') := by
  unfold callChain
  infer_instance

instance (start : Location) (expr : Expr) : Twin L (trailed? start expr) (trailed? start expr) := by
  refine .andThen inferInstance fun k => ?_
  split <;> infer_instance

instance : Twin L (trailing inner) (trailing inner') := by
  unfold trailing
  infer_instance

instance : Twin L (unaryBody inner) (unaryBody inner') := by
  refine .andThen inferInstance fun start => .andThen inferInstance fun k => ?_
  split
  · infer_instance
  · split <;> infer_instance

instance : Twin L (powerBody inner) (powerBody inner') := by
  unfold powerBody
  infer_instance

instance {operand operand' : Parser Expr} [Twin L operand operand'] (operators : List Kind) :
    Twin L (leftAssociative operators operand) (leftAssociative operators operand') := by
  have hjoined : ∀ start left, Twin L (joined? operators operand start left)
      (joined? operators operand' start left) := fun start left => by
    refine .andThen inferInstance fun k => ?_
    split <;> infer_instance
  unfold leftAssociative
  infer_instance

instance : Twin L (binaryBody inner) (binaryBody inner') := by
  have hall : ∀ ps : List (List Kind), Twin L (ps.foldr leftAssociative (powerBody inner))
      (ps.foldr leftAssociative (powerBody inner')) := by
    intro ps
    induction ps with
    | nil => exact (inferInstance : Twin L (powerBody inner) (powerBody inner'))
    | cons p ps ih =>
      rw [List.foldr_cons, List.foldr_cons]
      infer_instance
  exact hall operatorLevels

instance : Twin L (conditionalBody inner) (conditionalBody inner') := by
  unfold conditionalBody
  infer_instance

instance : Twin L (expressionBody inner) (expressionBody inner') := by
  have hreport := Twin.reportStructural (L := L) .invalidAssignmentTarget nofun
  refine .andThen inferInstance fun start => .andThen inferInstance fun target => ?_
  refine .andThen inferInstance fun k => ?_
  dsimp only
  split <;> infer_instance

/-! ## Declarations -/

instance (place : String) : Twin L (reportNoDeclaration place) (reportNoDeclaration place) := by
  have hreport := Twin.report (L := L) .expectedDeclaration nofun
  unfold reportNoDeclaration
  infer_instance

instance (context : Context) (what : String) :
    Twin L (memberBody inner context what) (memberBody inner' context what) := by
  refine .andThen inferInstance fun _ => .andThen inferInstance fun o => ?_
  cases o <;> infer_instance

instance : Twin L (namespaceDecl inner) (namespaceDecl inner') := by
  unfold namespaceDecl
  dsimp only
  infer_instance

instance (isClass : Bool) : Twin L (inheritanceEntry isClass) (inheritanceEntry isClass) := by
  have hreport := Twin.reportStructural (L := L) .invalidExclusion nofun
  unfold inheritanceEntry
  dsimp only
  infer_instance

instance : Twin L (classOrObject inner) (classOrObject inner') := by
  unfold classOrObject
  dsimp only
  infer_instance

instance (type : Ty) : Twin L (duplicateType type) (duplicateType type) := by
  have hle : ∀ n : NodeId, n ≤ ((type.edit Edit.freshCopy).run n).2 := fun n =>
    (Node.copied (.type type) n).first_le
  have hview : Twin L (fun s => (((type.edit Edit.freshCopy).run s.nextId).1, s) : Parser Ty)
      fun s => (((type.edit Edit.freshCopy).run s.nextId).1, s) := .view _ fun _ _ => rfl
  exact hview.andThen fun copy => (Twin.restamp _ hle).andThen fun _ =>
    (inferInstance : Twin L (pure copy) (pure copy))

instance : Twin L (structFields inner) (structFields inner') := by
  unfold structFields
  infer_instance

instance : Twin L (structDecl inner) (structDecl inner') := by
  unfold structDecl
  infer_instance

instance : Twin L (parameter inner) (parameter inner') := by
  unfold parameter
  infer_instance

instance : Twin L (parameters inner) (parameters inner') := by
  unfold parameters
  dsimp only
  infer_instance

instance (context : Context) : Twin L (functionDecl inner context) (functionDecl inner' context) := by
  have hreport := Twin.reportStructural (L := L) .functionInClass nofun
  unfold functionDecl
  dsimp only
  infer_instance

instance (context : Context) : Twin L (operatorDecl inner context) (operatorDecl inner' context) := by
  unfold operatorDecl
  dsimp only
  infer_instance

instance : Twin L importPath importPath := by
  refine .andThen inferInstance fun b => ?_
  split
  · refine .andThen inferInstance fun token => ?_
    split <;> infer_instance
  · infer_instance

instance : Twin L importDecl importDecl := by
  unfold importDecl
  dsimp only
  infer_instance

instance : Twin L usingDecl usingDecl := by
  unfold usingDecl
  infer_instance

instance : Twin L (enumMember inner) (enumMember inner') := by
  unfold enumMember
  dsimp only
  infer_instance

instance : Twin L (enumDecl inner) (enumDecl inner') := by
  unfold enumDecl
  infer_instance

instance : Twin L (typeAlias inner) (typeAlias inner') := by
  unfold typeAlias
  infer_instance

instance : Twin L asmDecl asmDecl := by
  unfold asmDecl
  infer_instance

instance : Twin L dataDecl dataDecl := by
  unfold dataDecl
  infer_instance

instance : Twin L templateParams templateParams := by
  unfold templateParams
  dsimp only
  infer_instance

instance (span : Span) : Twin L (placeholderStatement span) (placeholderStatement span) := by
  unfold placeholderStatement
  infer_instance

instance (context : Context) : Twin L (templateDecl inner context) (templateDecl inner' context) := by
  refine .andThen inferInstance fun start => .andThen inferInstance fun _ => ?_
  refine .andThen inferInstance fun params => .andThen inferInstance fun o => ?_
  dsimp only
  cases o <;> infer_instance

instance (type : Ty) : Twin L (finishFunctionPointer inner type) (finishFunctionPointer inner' type) := by
  unfold finishFunctionPointer
  split <;> infer_instance

instance (start : Location) (qualifiers : Qualifiers) (type : Ty) (name : String)
    (instantiation : Option (List Expr)) :
    Twin L (declarator inner start qualifiers type name instantiation)
      (declarator inner' start qualifiers type name instantiation) := by
  unfold declarator
  dsimp only
  infer_instance

instance (start : Location) (qualifiers : Qualifiers) (type : Ty) (name : String)
    (instantiation : Option (List Expr)) :
    Twin L (finishVariables inner start qualifiers type name instantiation)
      (finishVariables inner' start qualifiers type name instantiation) := by
  unfold finishVariables
  infer_instance

instance : Twin L (variableDecl inner) (variableDecl inner') := by
  unfold variableDecl
  infer_instance

instance : Twin L instantiationFollows instantiationFollows := by
  unfold instantiationFollows
  dsimp only
  infer_instance

instance : Twin L (declaratorForm inner) (declaratorForm inner') := by
  refine .lookAhead (.get (fun _ _ => rfl) fun s => .andThen inferInstance fun type => ?_)
  refine .get (fun _ _ => rfl) fun s => ?_
  infer_instance

instance : Twin L (instantiationArgs inner) (instantiationArgs inner') := by
  unfold instantiationArgs
  infer_instance

instance : Twin L (nameLedDecl inner) (nameLedDecl inner') := by
  refine .andThen inferInstance fun form => ?_
  cases form with
  | none => infer_instance
  | some form =>
    refine .andThen inferInstance fun start => .andThen inferInstance fun before => ?_
    refine .andThen inferInstance fun type => ?_
    cases form <;> infer_instance

instance (context : Context) : Twin L (declarationBody inner context) (declarationBody inner' context) := by
  have hone : ∀ {decl decl' : Parser Decl} [Twin L decl decl'],
      Twin L (declarationBody.one decl) (declarationBody.one decl') := fun {_ _} h =>
    h.andThen fun d => (inferInstance : Twin L (pure (some [d])) (pure (some [d])))
  refine .get (fun _ _ => rfl) fun s => ?_
  dsimp only
  split <;> infer_instance

instance (context : Context) (what : String) :
    Twin L (membersBody inner context what) (membersBody inner' context what) := by
  have hitem : Twin L (memberItem inner context what) (memberItem inner' context what) := by
    refine .andThen inferInstance fun o => ?_
    cases o <;> infer_instance
  unfold membersBody
  infer_instance

/-! ## Statements -/

instance (decl : Decl) : Twin L (declarationStatement decl) (declarationStatement decl) := by
  have hreport := Twin.reportStructural (L := L) .misplacedDeclaration nofun
  unfold declarationStatement
  dsimp only
  split <;> infer_instance

instance : Twin L (expressionStatement inner) (expressionStatement inner') := by
  unfold expressionStatement
  infer_instance

instance (keyword : String) : Twin L (condition inner keyword) (condition inner' keyword) := by
  unfold condition
  infer_instance

instance (context : Context) : Twin L (ifStatement inner context) (ifStatement inner' context) := by
  unfold ifStatement
  dsimp only
  infer_instance

instance (context : Context) : Twin L (whileStatement inner context) (whileStatement inner' context) := by
  unfold whileStatement
  infer_instance

instance (context : Context) : Twin L (doStatement inner context) (doStatement inner' context) := by
  unfold doStatement
  infer_instance

instance : Twin L rangeHeader rangeHeader := by
  unfold rangeHeader rangeNames
  dsimp only
  infer_instance

instance (context : Context) : Twin L (forInit inner context) (forInit inner' context) := by
  refine .andThen inferInstance fun accepted => ?_
  split
  · infer_instance
  · refine .andThen inferInstance fun o => ?_
    cases o <;> infer_instance

instance (context : Context) : Twin L (forStatement inner context) (forStatement inner' context) := by
  refine .andThen inferInstance fun start => .andThen inferInstance fun _ => ?_
  refine .andThen inferInstance fun _ => .andThen inferInstance fun o => ?_
  dsimp only
  split <;> infer_instance

instance (context : Context) : Twin L (switchCase inner context) (switchCase inner' context) := by
  unfold switchCase
  dsimp only
  infer_instance

instance (context : Context) (cases : List Case) :
    Twin L (nextCases inner context cases) (nextCases inner' context cases) := by
  have hreport := Twin.reportStructural (L := L) .duplicateDefaultCase nofun
  unfold nextCases
  dsimp only
  infer_instance

instance (context : Context) : Twin L (switchCases inner context) (switchCases inner' context) := by
  unfold switchCases switchRound
  infer_instance

instance (context : Context) : Twin L (switchStatement inner context) (switchStatement inner' context) := by
  have hreport := Twin.reportStructural (L := L) .missingDefaultCase nofun
  unfold switchStatement
  dsimp only
  infer_instance

instance : Twin L (returnStatement inner) (returnStatement inner') := by
  unfold returnStatement
  dsimp only
  infer_instance

instance (context : Context) : Twin L (breakStatement context) (breakStatement context) := by
  have hreport := Twin.reportStructural (L := L) .misplacedJump nofun
  unfold breakStatement
  dsimp only
  infer_instance

instance (context : Context) : Twin L (continueStatement context) (continueStatement context) := by
  have hreport := Twin.reportStructural (L := L) .misplacedJump nofun
  unfold continueStatement
  dsimp only
  infer_instance

instance : Twin L (handlerException inner) (handlerException inner') := by
  unfold handlerException
  dsimp only
  infer_instance

instance (context : Context) : Twin L (handler? inner context) (handler? inner' context) := by
  unfold handler?
  infer_instance

instance (context : Context) : Twin L (tryStatement inner context) (tryStatement inner' context) := by
  unfold tryStatement
  dsimp only
  infer_instance

instance (context : Context) : Twin L (closedBlock inner context) (closedBlock inner' context) := by
  unfold closedBlock
  infer_instance

instance (context : Context) : Twin L (throwStatement inner context) (throwStatement inner' context) := by
  unfold throwStatement
  infer_instance

instance : Twin L (assertStatement inner) (assertStatement inner') := by
  unfold assertStatement
  infer_instance

instance : Twin L asmStatement asmStatement := by
  unfold asmStatement
  infer_instance

instance (context : Context) (which : LockKind) :
    Twin L (lockStatement inner context which) (lockStatement inner' context which) := by
  unfold lockStatement
  dsimp only
  infer_instance

instance (context : Context) : Twin L (blockStatement inner context) (blockStatement inner' context) := by
  unfold blockStatement
  infer_instance

instance (context : Context) :
    Twin L (keywordStatement inner context) (keywordStatement inner' context) := by
  refine .andThen inferInstance fun k => ?_
  split <;> infer_instance

instance (context : Context) : Twin L (plainStatement inner context) (plainStatement inner' context) := by
  refine .andThen inferInstance fun o => ?_
  cases o <;> infer_instance

instance (context : Context) : Twin L (blockItem inner context) (blockItem inner' context) := by
  refine .andThen inferInstance fun o => ?_
  cases o with
  | some stmt => infer_instance
  | none =>
    refine .andThen inferInstance fun decls => ?_
    cases decls <;> infer_instance

instance (context : Context) : Twin L (itemsBody inner context) (itemsBody inner' context) := by
  unfold itemsBody
  infer_instance

instance (context : Context) : Twin L (statementBody inner context) (statementBody inner' context) := by
  refine .andThen inferInstance fun start => .andThen inferInstance fun statements => ?_
  split <;> infer_instance

/-! ## Levels over each other -/

instance : TwinLevel L (Level.above fun _ => inner) (Level.above fun _ => inner') where
  type := (inferInstance : Twin L (typeBody inner.expression inner.type)
    (typeBody inner'.expression inner'.type))
  skim := (inferInstance : Twin L (typeBody skippedSize inner.skim) (typeBody skippedSize inner'.skim))
  expression := (inferInstance : Twin L (expressionBody inner) (expressionBody inner'))
  conditional := (inferInstance : Twin L (conditionalBody inner) (conditionalBody inner'))
  power := (inferInstance : Twin L (powerBody inner) (powerBody inner'))
  unary := (inferInstance : Twin L (unaryBody inner) (unaryBody inner'))
  statement context := (inferInstance : Twin L (statementBody inner context) (statementBody inner' context))
  items context :=
    (inferInstance : Twin L (some <$> itemsBody inner context) (some <$> itemsBody inner' context))
  members context what :=
    (inferInstance : Twin L (some <$> membersBody inner context what) (some <$> membersBody inner' context what))
  declaration context :=
    (inferInstance : Twin L (declarationBody inner context) (declarationBody inner' context))

end Productions

/-- Grammars over twin levels are twins. -/
instance {bottom bottom' : Level} [h : TwinLevel L bottom bottom'] (room : Nat) :
    TwinLevel L (grammarOver bottom room) (grammarOver bottom' room) := by
  induction room with
  | zero => exact h
  | succ room ih =>
    exact (inferInstance : TwinLevel L (Level.above fun _ => grammarOver bottom room)
      (Level.above fun _ => grammarOver bottom' room))

instance (limit : Nat) : Twin L (refuse limit) (refuse limit) := by
  have hreport := Twin.report (L := L) .nestingTooDeep nofun
  unfold refuse
  infer_instance

instance {α : Type} (limit : Nat) (build : Span → NodeId → α) :
    Twin L (refuseNode limit build) (refuseNode limit build) := by
  unfold refuseNode
  infer_instance

instance (limit : Nat) : TwinLevel L (Level.full limit) (Level.full limit) where
  type := (inferInstance : Twin L (refuseNode limit _) (refuseNode limit _))
  skim := (inferInstance : Twin L (refuseNode limit _) (refuseNode limit _))
  expression := (inferInstance : Twin L (refuseNode limit _) (refuseNode limit _))
  conditional := (inferInstance : Twin L (refuseNode limit _) (refuseNode limit _))
  power := (inferInstance : Twin L (refuseNode limit _) (refuseNode limit _))
  unary := (inferInstance : Twin L (refuseNode limit _) (refuseNode limit _))
  statement _ := by
    unfold Level.full
    infer_instance
  items _ := by
    unfold Level.full
    infer_instance
  members _ _ := by
    unfold Level.full
    infer_instance
  declaration _ := by
    unfold Level.full
    infer_instance

instance (limit room : Nat) : TwinLevel L (grammar limit room) (grammar limit room) :=
  (inferInstance : TwinLevel L (grammarOver (Level.full limit) room) (grammarOver (Level.full limit) room))

/-! ## Programs side by side -/

section Programs

variable {L : Likeness} {config config' : Config} (inner inner' : Level) [TwinLevel L inner inner']

/-- What the settings say about a statement outside of everything. -/
def judgeOutside (config : Config) (span : Span) : Parser Unit := do
  unless config.allowTopLevelStatements do
    reportStructural .topLevelStatement "Statements are not allowed at the top level" span

/-- Settings that agree about statements judge alike, if the errors may be related through any error. -/
theorem twin_judgeOutside {L : Likeness} {config config' : Config}
    (hadd : ∀ {c c' : Diagnostic.Collection} (d : Diagnostic), L.errors c c' →
      L.errors (c.addError d) (c'.addError d))
    (h : config'.allowTopLevelStatements = config.allowTopLevelStatements) (span : Span) :
    Twin L (judgeOutside config span) (judgeOutside config' span) := by
  have hreport : ∀ kind message, Twin L (reportStructural kind message span)
      (reportStructural kind message span) := fun _ _ =>
    .move (.record _) fun hlike => hlike.recorded (hadd _ hlike.errors)
  unfold judgeOutside
  rw [h]
  infer_instance

/-- Where the errors are the same, an item is judged in the same way. -/
theorem twin_judgeOutside_equal {L : Likeness} {config config' : Config} (herrors : L.errors = Eq)
    (h : config'.allowTopLevelStatements = config.allowTopLevelStatements) (span : Span) :
    Twin L (judgeOutside config span) (judgeOutside config' span) := by
  refine twin_judgeOutside (fun {c c'} d hc => ?_) h span
  rw [herrors] at hc ⊢
  rw [hc]

/-- An item is judged as a whole, and then goes on. -/
theorem topLevelItem_eq (config : Config) (inner : Level) :
    topLevelItem config inner = (do
      match ← declarationBody inner .topLevel with
      | some decls => return decls
      | none =>
        let stmt ← plainStatement inner .topLevel
        judgeOutside config stmt.span
        return [← nodeAt (Decl.mk (.statement stmt)) stmt.span]) := by
  obtain ⟨depth, allow, limit⟩ := config
  cases allow <;> rfl

theorem twin_topLevelItem (h : ∀ span, Twin L (judgeOutside config span) (judgeOutside config' span)) :
    Twin L (topLevelItem config inner) (topLevelItem config' inner') := by
  rw [topLevelItem_eq, topLevelItem_eq]
  refine .andThen inferInstance fun o => ?_
  cases o <;> infer_instance

theorem twin_programOver (h : ∀ span, Twin L (judgeOutside config span) (judgeOutside config' span)) :
    Twin L (programOver config inner) (programOver config' inner') := by
  have hitem : Twin L (topLevelItem config inner) (topLevelItem config' inner') := twin_topLevelItem _ _ h
  refine .andThen inferInstance fun start => .andThen inferInstance fun decls => ?_
  exact .get (fun _ _ => rfl) fun s => inferInstance

end Programs

end FluxFront.Grammar
