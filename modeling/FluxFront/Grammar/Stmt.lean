import FluxFront.Grammar.Decl

/-!
# The grammar of statements

A statement starts with a keyword or a brace, or it is a declaration or an expression.  Declarations
of variables are statements; any other declaration is kept in place and reported.

`break` and `continue` are read everywhere and reported where the context does not allow them.
-/

namespace FluxFront.Grammar

open Token (Kind)

/-! ## Declarations and expressions as statements -/

/-- A declaration as a statement. -/
def declarationStatement (decl : Decl) : Parser Stmt := do
  match decl.form with
  | .variable var => return { form := .variable var, span := decl.span, id := decl.id }
  | _ =>
    let what := match decl.name? with
      | some name => "Declaration of '" ++ name ++ "' is not allowed inside a function body"
      | none => "Declaration is not allowed inside a function body"
    reportStructural .misplacedDeclaration what decl.span
    nodeAt (Stmt.mk (.misplaced decl)) decl.span

/-- An expression as a statement. -/
def expressionStatement (inner : Level) : Parser Stmt := do
  let start ← here
  let expr ← inner.expression
  expectSemicolon "expression"
  node (Stmt.mk (.expression expr)) start

/-! ## Branches and loops -/

/-- A condition in parentheses behind a keyword. -/
def condition (inner : Level) (keyword : String) : Parser Expr := do
  consume .leftParen ("Expected '(' after '" ++ keyword ++ "'")
  let expr ← inner.expression
  consume .rightParen "Expected ')' after condition"
  return expr

/-- A choice between two statements. -/
def ifStatement (inner : Level) (context : Context) : Parser Stmt := do
  let start ← here
  let _ ← advance
  let condition ← condition inner "if"
  let thenBranch ← inner.statement context
  let elseBranch ← do
    if ← accept .kwElse then some <$> inner.statement context else pure none
  node (Stmt.mk (.ifElse condition thenBranch elseBranch)) start

/-- A loop with its condition in front. -/
def whileStatement (inner : Level) (context : Context) : Parser Stmt := do
  let start ← here
  let _ ← advance
  let condition ← condition inner "while"
  let body ← inner.statement context.looping
  node (Stmt.mk (.whileLoop condition body)) start

/-- A loop with its condition behind. -/
def doStatement (inner : Level) (context : Context) : Parser Stmt := do
  let start ← here
  let _ ← advance
  let body ← inner.statement context.looping
  consume .kwWhile "Expected 'while' after 'do' body"
  let condition ← condition inner "while"
  expectSemicolon "do-while loop"
  node (Stmt.mk (.doWhile body condition)) start

/-- The names in front of `in`, or nothing if they are not there. -/
def rangeNames : Parser (Option (String × Option String)) := do
  let before ← position
  if ← check .identifier then
    let var := (← advance).lexeme
    let index ← do
      if (← check .comma) && (← kindAt 1) == .identifier then
        let _ ← advance
        pure (some (← advance).lexeme)
      else pure none
    if ← accept .kwIn then
      noteCommitted "range loop header" before
      return some (var, index)
    else return none
  else return none

/-- The names in front of `in`, or nothing, and then nothing is read. -/
def rangeHeader : Parser (Option (String × Option String)) := attempt rangeNames

/-- The first clause of a loop, with its semicolon. -/
def forInit (inner : Level) (context : Context) : Parser (List Stmt) := do
  if ← accept .semicolon then return []
  else
    match ← declarationBody inner context with
    | some decls => decls.mapM declarationStatement
    | none => return [← expressionStatement inner]

/-- A loop over a range, or one with three clauses. -/
def forStatement (inner : Level) (context : Context) : Parser Stmt := do
  let start ← here
  let _ ← advance
  consume .leftParen "Expected '(' after 'for'"
  match ← rangeHeader with
  | some (var, index) =>
    let range ← inner.expression
    consume .rightParen "Expected ')' after range expression"
    let body ← inner.statement context.looping
    node (Stmt.mk (.forRange var index range body)) start
  | none =>
    let init ← forInit inner context
    let condition ← do
      if ← check .semicolon then pure none else some <$> inner.expression
    consume .semicolon "Expected ';' after loop condition"
    let increment ← do
      if ← check .rightParen then pure none else some <$> inner.expression
    consume .rightParen "Expected ')' after for clauses"
    let body ← inner.statement context.looping
    node (Stmt.mk (.forLoop init condition increment body)) start

/-! ## Switches -/

/-- One case. -/
def switchCase (inner : Level) (context : Context) : Parser Case := do
  let start ← here
  let _ ← advance
  consume .leftParen "Expected '(' after 'case'"
  let pattern ← do
    if ← accept .kwDefault then pure none else some <$> inner.expression
  consume .rightParen "Expected ')' after case pattern"
  let body ← block inner context
  let _ ← accept .semicolon
  return { pattern, body, span := ← spanFrom start }

/-- The cases with the one at the cursor, which may be missing.  A second default case is reported. -/
def nextCases (inner : Level) (context : Context) (cases : List Case) : Parser (List Case) := do
  if ← check .kwCase then
    let case ← switchCase inner context
    if case.isDefault && cases.any Case.isDefault then
      reportStructural .duplicateDefaultCase
        "Switch statement has more than one default case" case.span
    return cases ++ [case]
  else
    reportUnexpected "Expected 'case' in switch body"
    return cases

/-- One round of a switch: nothing at the closing brace or at the end of the text, otherwise the cases
with the next one. -/
def switchRound (inner : Level) (context : Context) (cases : List Case) :
    Parser (Option (List Case)) := do
  if ← checkOrEnd .rightBrace then return none
  else
    let before ← position
    let cases ← nextCases inner context cases
    recoverAfterItem before
    return some cases

/-- The cases up to the closing brace. -/
def switchCases (inner : Level) (context : Context) : Parser (List Case) :=
  iterate (switchRound inner context) []

/-- A switch; one without a default case is reported. -/
def switchStatement (inner : Level) (context : Context) : Parser Stmt := do
  let start ← here
  let _ ← advance
  let subject ← condition inner "switch"
  consume .leftBrace "Expected '\x7b' after switch subject"
  let cases ← switchCases inner context.switching
  consume .rightBrace "Expected '\x7d' after switch cases"
  let stmt ← node (Stmt.mk (.switch subject cases)) start
  unless cases.any Case.isDefault do
    reportStructural .missingDefaultCase "Switch statement has no 'case (default)'" stmt.span
  return stmt

/-! ## Jumps -/

/-- The value of a function. -/
def returnStatement (inner : Level) : Parser Stmt := do
  let start ← here
  let _ ← advance
  let value ← do
    if ← checkAny [.semicolon, .rightBrace] then pure none else some <$> inner.expression
  expectSemicolon "return value"
  node (Stmt.mk (.returnValue value)) start

/-- `break` inside a loop or a switch. -/
def breakStatement (context : Context) : Parser Stmt := do
  let start ← here
  let _ ← advance
  expectSemicolon "'break'"
  let stmt ← node (Stmt.mk .breakLoop) start
  unless context.inLoop || context.inSwitch do
    reportStructural .misplacedJump "'break' outside of a loop or switch" stmt.span
  return stmt

/-- `continue` inside a loop. -/
def continueStatement (context : Context) : Parser Stmt := do
  let start ← here
  let _ ← advance
  expectSemicolon "'continue'"
  let stmt ← node (Stmt.mk .continueLoop) start
  unless context.inLoop do
    reportStructural .misplacedJump "'continue' outside of a loop" stmt.span
  return stmt

/-! ## Exceptions, assertions, locks -/

/-- The exception in the parentheses of a handler, if there are any. -/
def handlerException (inner : Level) : Parser (Option Ty × Option String) := do
  if ← accept .leftParen then
    let exception ← inner.type
    let binding ← do
      if ← check .identifier then pure (some (← advance).lexeme) else pure none
    consume .rightParen "Expected ')' after catch parameter"
    return (some exception, binding)
  else return (none, none)

/-- A handler, if there is one. -/
def handler? (inner : Level) (context : Context) : Parser (Option Handler) := do
  let start ← here
  if ← accept .kwCatch then
    let (exception, binding) ← handlerException inner
    let body ← block inner context
    return some { exception, binding, body, span := ← spanFrom start }
  else return none

/-- A block with handlers. -/
def tryStatement (inner : Level) (context : Context) : Parser Stmt := do
  let start ← here
  let _ ← advance
  let body ← block inner context
  let handlers ← many (handler? inner context)
  if handlers.isEmpty then reportUnexpected "Expected 'catch' after try block"
  node (Stmt.mk (.tryCatch body handlers)) start

/-- A block with an optional semicolon behind it. -/
def closedBlock (inner : Level) (context : Context) : Parser Block := do
  let body ← block inner context
  let _ ← accept .semicolon
  return body

/-- A `throw` with an optional message and an optional block; parentheses around the message belong
to the statement if a block follows. -/
def throwStatement (inner : Level) (context : Context) : Parser Stmt := do
  let start ← here
  let _ ← advance
  if ← accept .semicolon then node (Stmt.mk (.throwValue none none)) start
  else if ← check .leftBrace then
    let body ← closedBlock inner context
    node (Stmt.mk (.throwValue none (some body))) start
  else
    let message ← inner.expression
    if ← check .leftBrace then
      let message := match message.form with
        | .group expr => expr
        | _ => message
      let body ← closedBlock inner context
      node (Stmt.mk (.throwValue (some message) (some body))) start
    else
      expectSemicolon "thrown value"
      node (Stmt.mk (.throwValue (some message) none)) start

/-- An assertion. -/
def assertStatement (inner : Level) : Parser Stmt := do
  let start ← here
  let _ ← advance
  consume .leftParen "Expected '(' after 'assert'"
  let condition ← inner.expression
  consume .rightParen "Expected ')' after assertion"
  expectSemicolon "assertion"
  node (Stmt.mk (.assertion condition)) start

/-- Raw assembly as a statement. -/
def asmStatement : Parser Stmt := do
  let start ← here
  let raw ← asmBody
  node (Stmt.mk (.asm raw)) start

/-- A lock on a scope, for a block or from here on. -/
def lockStatement (inner : Level) (context : Context) (which : LockKind) : Parser Stmt := do
  let start ← here
  let _ ← advance
  let scope ← qualifiedName "Expected lock scope"
  let body ← do
    if ← check .leftBrace then some <$> closedBlock inner context
    else
      expectSemicolon "lock scope"
      pure none
  node (Stmt.mk (.lock which scope body)) start

/-- A block as a statement. -/
def blockStatement (inner : Level) (context : Context) : Parser Stmt := do
  let body ← block inner context
  nodeAt (Stmt.mk (.block body)) body.span

/-! ## Statements -/

/-- The statement that a keyword or a brace at the cursor starts, if it starts one. -/
def keywordStatement (inner : Level) (context : Context) : Parser (Option Stmt) := do
  match ← kind with
  | .kwIf => some <$> ifStatement inner context
  | .kwWhile => some <$> whileStatement inner context
  | .kwDo => some <$> doStatement inner context
  | .kwFor => some <$> forStatement inner context
  | .kwSwitch => some <$> switchStatement inner context
  | .kwReturn => some <$> returnStatement inner
  | .kwBreak => some <$> breakStatement context
  | .kwContinue => some <$> continueStatement context
  | .kwTry => some <$> tryStatement inner context
  | .kwThrow => some <$> throwStatement inner context
  | .kwAssert => some <$> assertStatement inner
  | .kwAsm => some <$> asmStatement
  | .kwLock => some <$> lockStatement inner context .lock
  | .kwPreLock => some <$> lockStatement inner context .preLock
  | .kwPostLock => some <$> lockStatement inner context .postLock
  | .leftBrace => some <$> blockStatement inner context
  | _ => return none

/-- A statement that is no declaration. -/
def plainStatement (inner : Level) (context : Context) : Parser Stmt := do
  match ← keywordStatement inner context with
  | some stmt => return stmt
  | none => expressionStatement inner

/-- The statements of one item of a block; a declaration may give several. -/
def blockItem (inner : Level) (context : Context) : Parser (List Stmt) := do
  match ← keywordStatement inner context with
  | some stmt => return [stmt]
  | none =>
    match ← declarationBody inner context with
    | some decls => decls.mapM declarationStatement
    | none => return [← expressionStatement inner]

/-- The statements of a block. -/
def itemsBody (inner : Level) (context : Context) : Parser (List Stmt) :=
  bodyItems .rightBrace (blockItem inner context)

/-- A single statement; several variables of one declaration are wrapped in a block. -/
def statementBody (inner : Level) (context : Context) : Parser Stmt := do
  let start ← here
  match ← blockItem inner context with
  | [stmt] => return stmt
  | statements =>
    let span ← spanFrom start
    nodeAt (Stmt.mk (.block { statements, span })) span

end FluxFront.Grammar
