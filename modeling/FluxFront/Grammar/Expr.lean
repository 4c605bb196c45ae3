import FluxFront.Grammar.Block
import FluxFront.Grammar.Literal
import FluxFront.Grammar.Ty

/-!
# The grammar of expressions

From loose to tight: assignment and the conditional, which group to the right; ten levels of binary
operators, which group to the left; powers, which group to the right; prefix operators and casts;
postfix operators; calls, members and subscripts; primaries.

* **Levels**: `operatorLevels` lists the tokens of each level of binary operators; a level reads
  operands of the next one with its own operators between them.  The strengths that the printer sets
  parentheses by are a table of their own, and `mem_operatorLevels` says that the two agree.
* **Casts**: `(` starts a cast if a type can be skimmed behind it, `)` follows, and then something
  that can only be an operand.
* **Braces**: `{` starts a dictionary if it is closed at once, or if a colon stands on the level of
  its first entry; otherwise it starts a block.
-/

namespace FluxFront.Grammar

open Token (Kind)

/-! ## Operators as tokens -/

/-- The assignment operator that a token writes. -/
def assignOp? : Kind → Option AssignOp
  | .equal => some .assign
  | .plusEqual => some .add
  | .minusEqual => some .subtract
  | .starEqual => some .multiply
  | .slashEqual => some .divide
  | .percentEqual => some .modulo
  | .ampEqual => some .bitAnd
  | .pipeEqual => some .bitOr
  | .caretEqual => some .bitXor
  | .shlEqual => some .shl
  | .shrEqual => some .shr
  | .starStarEqual => some .power
  | _ => none

/-- The binary operator that a token writes. -/
def binaryOp? : Kind → Option BinaryOp
  | .pipePipe => some .or
  | .ampAmp => some .and
  | .pipe => some .bitOr
  | .caret => some .bitXor
  | .amp => some .bitAnd
  | .equalEqual => some .equal
  | .notEqual => some .notEqual
  | .kwIs => some .is
  | .less => some .less
  | .lessEqual => some .lessEqual
  | .greater => some .greater
  | .greaterEqual => some .greaterEqual
  | .shl => some .shl
  | .shr => some .shr
  | .plus => some .add
  | .minus => some .subtract
  | .star => some .multiply
  | .slash => some .divide
  | .percent => some .modulo
  | .starStar => some .power
  | _ => none

/-- The operator that a token writes in front of its operand. -/
def leadingOp? : Kind → Option UnaryOp
  | .bang => some .not
  | .minus => some .negate
  | .plus => some .plus
  | .tilde => some .bitNot
  | .plusPlus => some .increment
  | .minusMinus => some .decrement
  | .star => some .deref
  | .atSign | .amp => some .addressOf
  | _ => none

/-- The operator that a token writes behind its operand. -/
def trailingOp? : Kind → Option UnaryOp
  | .plusPlus => some .increment
  | .minusMinus => some .decrement
  | _ => none

/-- The kinds of literal tokens. -/
def literalKinds : List Kind :=
  [.intLiteral, .floatLiteral, .charLiteral, .stringLiteral, .bitLiteral, .interpolatedString,
   .kwTrue, .kwFalse]

/-! ## Primaries -/

/-- Expressions up to a closing token with commas between them and possibly one behind the last. -/
def arguments (inner : Level) (close : Kind) : Parser (List Expr) :=
  commaTerminated close inner.expression

/-- A literal. -/
def literal : Parser Expr := do
  let start ← here
  let token ← advance
  node (Expr.mk (.literal (literalOf token))) start

/-- Whether a type in parentheses is a cast, judged by the token behind it.  A plain name could as
well be an operand, so it needs an operand that cannot continue an expression. -/
def startsCastOperand (target : Ty) (next : Kind) : Bool :=
  match target.form with
  | .named _ | .qualified _ => next == .identifier || next == .atSign || literalKinds.contains next
  | _ =>
    [Kind.identifier, .leftParen, .starStar].contains next || literalKinds.contains next
      || (leadingOp? next).isSome

/-- Whether the parenthesis at the cursor starts a cast. -/
def castAhead (inner : Level) : Parser Bool := lookAhead do
  let failures := (← get).failures
  let _ ← advance
  if ← checkAny typeStarts then
    let target ← inner.skim
    if (← get).failures == failures then
      if ← accept .rightParen then return startsCastOperand target (← kind)
    return false
  else return false

/-- A cast, or an expression in parentheses. -/
def groupOrCast (inner : Level) : Parser Expr := do
  let start ← here
  if ← castAhead inner then
    let before ← position
    let _ ← advance
    let target ← inner.type
    consume .rightParen "Expected ')' after cast type"
    noteCommitted "cast" before
    let operand ← inner.unary
    node (Expr.mk (.cast target operand)) start
  else
    let _ ← advance
    let expr ← inner.expression
    consume .rightParen "Expected ')' after expression"
    node (Expr.mk (.group expr)) start

/-- The size of a type. -/
def sizeOfExpr (inner : Level) : Parser Expr := do
  let start ← here
  let _ ← advance
  consume .leftParen "Expected '(' after 'sizeof'"
  let type ← inner.type
  consume .rightParen "Expected ')' after type"
  node (Expr.mk (.sizeOf type)) start

/-- The type of an expression. -/
def typeOfExpr (inner : Level) : Parser Expr := do
  let start ← here
  let _ ← advance
  consume .leftParen "Expected '(' after 'typeof'"
  let expr ← inner.expression
  consume .rightParen "Expected ')' after expression"
  node (Expr.mk (.typeOf expr)) start

/-- A user-defined operator between two operands. -/
def opExpr (inner : Level) : Parser Expr := do
  let start ← here
  let _ ← advance
  consume .less "Expected '<' after 'op'"
  let left ← inner.unary
  let k ← kind
  let operator ← do
    if k == .identifier || ((binaryOp? k).isSome && k != .greater && k != .shr) then
      pure (← advance).lexeme
    else
      reportUnexpected "Expected operator name in 'op' expression"
      pure ""
  let right ← inner.unary
  consumeClosingAngle "Expected '>' to close 'op' expression"
  node (Expr.mk (.opCall left operator right)) start

/-- The values of an interpolated string, each ended by a semicolon, up to the closing brace.  A
value that reads nothing is the last. -/
def interpolatedValues (inner : Level) : Parser (List Expr) := do
  let (values, _) ← iterate (fun (state : List Expr × Bool) => do
    let (values, stalled) := state
    if stalled || (← checkOrEnd .rightBrace) then return none
    else
      let before ← position
      let value ← inner.expression
      consume .semicolon "Expected ';' after interpolated value"
      return some (values ++ [value], (← position) == before)) ([], false)
  return values

/-- An interpolated string with the values for its slots. -/
def interpolatedString (inner : Level) : Parser Expr := do
  let start ← here
  let parts := partsOf (← advance)
  let values ← do
    if (← check .colon) || 1 < parts.length then
      consume .colon "Expected ':' after interpolated string"
      consume .leftBrace "Expected '\x7b' before interpolated values"
      let values ← interpolatedValues inner
      consume .rightBrace "Expected '\x7d' after interpolated values"
      pure values
    else pure []
  let expr ← node (Expr.mk (.interpolated parts values)) start
  let slots := parts.length - 1
  if slots != values.length then
    reportStructural .interpolationMismatch
      ("Interpolated string has " ++ toString slots ++ " placeholder(s) but "
        ++ toString values.length ++ " value(s)") expr.span
  return expr

/-- An array of expressions. -/
def arrayExpr (inner : Level) : Parser Expr := do
  let start ← here
  let _ ← advance
  let elements ← arguments inner .rightBracket
  consume .rightBracket "Expected ']' after array elements"
  node (Expr.mk (.array elements)) start

/-- Whether the first entry of a brace has a colon of its own: `depth` brackets are open around the
tokens ahead, `conditionals` question marks wait for their colon, and `last` is the kind before. -/
def colonAhead : Nat → Nat → Kind → List Token → Bool
  | _, _, _, [] => false
  | depth, conditionals, last, t :: rest =>
    match t.kind with
    | .eof => false
    | .leftParen | .leftBracket | .leftBrace => colonAhead (depth + 1) conditionals t.kind rest
    | .rightParen | .rightBracket | .rightBrace =>
      match depth with
      | 0 => false
      | outer + 1 => colonAhead outer conditionals t.kind rest
    | .semicolon => if depth = 0 then false else colonAhead depth conditionals t.kind rest
    | .question =>
      colonAhead depth (if depth = 0 then conditionals + 1 else conditionals) t.kind rest
    | .colon =>
      if depth = 0 ∧ last ≠ .interpolatedString then
        match conditionals with
        | 0 => true
        | others + 1 => colonAhead depth others t.kind rest
      else colonAhead depth conditionals t.kind rest
    | _ => colonAhead depth conditionals t.kind rest

/-- The keywords that start an expression. -/
def expressionKeywords : List Kind := [.kwTrue, .kwFalse, .kwSizeOf, .kwTypeOf, .kwOp]

/-- Whether the brace in front of some tokens starts a dictionary. -/
def dictionaryAhead (s : State) : Bool :=
  let first := s.kindAt 1
  (!first.isKeyword || expressionKeywords.contains first)
    && colonAhead 0 0 .leftBrace (s.rest.drop 1)

/-- A key and its value. -/
def dictionaryEntry (inner : Level) : Parser Entry := do
  let key ← inner.expression
  consume .colon "Expected ':' after dictionary key"
  let value ← inner.expression
  return { key, value }

/-- A dictionary or a block. -/
def braceExpr (inner : Level) : Parser Expr := do
  let start ← here
  if (← kindAt 1) == .rightBrace then
    let _ ← advance
    let _ ← advance
    node (Expr.mk (.dictionary [])) start
  else if dictionaryAhead (← get) then
    let _ ← advance
    let first ← dictionaryEntry inner
    let more ← many do
      if ← accept .comma then
        if ← check .rightBrace then return none else return some (← dictionaryEntry inner)
      else return none
    consume .rightBrace "Expected '\x7d' after dictionary entries"
    node (Expr.mk (.dictionary (first :: more))) start
  else
    let body ← block inner Context.topLevel.functionBody
    node (Expr.mk (.block body.statements)) start

/-- Reports a missing operand and gives a placeholder for it. -/
def missingExpr : Parser Expr := do
  let token ← current
  report .expectedExpression ("Expected expression, found " ++ token.describe) token.span
  nodeAt (Expr.mk .placeholder) (← emptySpan)

/-- An expression that is not made by an operator. -/
def primary (inner : Level) : Parser Expr := do
  match ← kind with
  | .intLiteral | .floatLiteral | .charLiteral | .stringLiteral | .bitLiteral | .kwTrue
  | .kwFalse => literal
  | .identifier =>
    let start ← here
    let name := (← advance).lexeme
    node (Expr.mk (.identifier name)) start
  | .leftParen => groupOrCast inner
  | .kwSizeOf => sizeOfExpr inner
  | .kwTypeOf => typeOfExpr inner
  | .kwOp => opExpr inner
  | .interpolatedString => interpolatedString inner
  | .leftBracket => arrayExpr inner
  | .leftBrace => braceExpr inner
  | _ => missingExpr

/-! ## Operators -/

/-- The expression with the call, member or subscript ahead, if there is one. -/
def chained? (inner : Level) (start : Location) (expr : Expr) : Parser (Option Expr) := do
  match ← kind with
  | .leftParen =>
    let _ ← advance
    let args ← arguments inner .rightParen
    consume .rightParen "Expected ')' after arguments"
    return some (← node (Expr.mk (.call expr args)) start)
  | .dot =>
    let _ ← advance
    let k ← kind
    let name ← do
      if k == .identifier || k.isKeyword then pure (← advance).lexeme
      else
        reportUnexpected "Expected member name after '.'"
        pure ""
    return some (← node (Expr.mk (.member expr name)) start)
  | .leftBracket =>
    let _ ← advance
    let index ← inner.expression
    consume .rightBracket "Expected ']' after index"
    return some (← node (Expr.mk (.subscript expr index)) start)
  | _ => return none

/-- A primary with calls, members and subscripts. -/
def callChain (inner : Level) : Parser Expr := do
  let start ← here
  let expr ← primary inner
  iterate (chained? inner start) expr

/-- The expression with the operator behind it, if there is one. -/
def trailed? (start : Location) (expr : Expr) : Parser (Option Expr) := do
  match trailingOp? (← kind) with
  | some op =>
    let _ ← advance
    return some (← node (Expr.mk (.unary op expr .after)) start)
  | none => return none

/-- A call chain with operators behind it. -/
def trailing (inner : Level) : Parser Expr := do
  let start ← here
  let expr ← callChain inner
  iterate (trailed? start) expr

/-- An operand with operators in front of it.  The token `**` dereferences twice. -/
def unaryBody (inner : Level) : Parser Expr := do
  let start ← here
  let k ← kind
  if k == .starStar then
    let _ ← advance
    let operand ← inner.unary
    let once ← node (Expr.mk (.unary .deref operand .before)) start
    node (Expr.mk (.unary .deref once .before)) start
  else
    match leadingOp? k with
    | some op =>
      let _ ← advance
      let operand ← inner.unary
      node (Expr.mk (.unary op operand .before)) start
    | none => trailing inner

/-- A power; the exponent may be a power again. -/
def powerBody (inner : Level) : Parser Expr := do
  let start ← here
  let base ← unaryBody inner
  if ← accept .starStar then
    let exponent ← inner.power
    node (Expr.mk (.binary .power base exponent)) start
  else return base

/-- The operand with one of some operators ahead and the operand behind it, if there is one. -/
def joined? (operators : List Kind) (operand : Parser Expr) (start : Location) (left : Expr) :
    Parser (Option Expr) := do
  let k ← kind
  match (binaryOp? k).filter fun _ => operators.contains k with
  | some op =>
    let _ ← advance
    let right ← operand
    return some (← node (Expr.mk (.binary op left right)) start)
  | none => return none

/-- Operands with some operators between them, grouped to the left. -/
def leftAssociative (operators : List Kind) (operand : Parser Expr) : Parser Expr := do
  let start ← here
  let first ← operand
  iterate (joined? operators operand start) first

/-- The operators that group to the left, level by level, the loosest first. -/
def operatorLevels : List (List Kind) :=
  [[.pipePipe],
   [.ampAmp],
   [.pipe],
   [.caret],
   [.amp],
   [.equalEqual, .notEqual, .kwIs],
   [.less, .lessEqual, .greater, .greaterEqual],
   [.shl, .shr],
   [.plus, .minus],
   [.star, .slash, .percent]]

/-- The levels of the grammar are the strengths of the printer, one level for each. -/
theorem mem_operatorLevels {k : Kind} {op : BinaryOp} (h : binaryOp? k = some op) :
    ∀ i (hi : i < operatorLevels.length), k ∈ operatorLevels[i] ↔ op.precedence = i + 1 := by
  unfold binaryOp? at h
  split at h <;> cases h <;> decide

/-- Operands with binary operators between them. -/
def binaryBody (inner : Level) : Parser Expr :=
  operatorLevels.foldr leftAssociative (powerBody inner)

/-- A conditional expression, or an expression that binds tighter. -/
def conditionalBody (inner : Level) : Parser Expr := do
  let start ← here
  let condition ← binaryBody inner
  if ← accept .question then
    let thenValue ← inner.expression
    consume .colon "Expected ':' in conditional expression"
    let elseValue ← inner.conditional
    node (Expr.mk (.conditional condition thenValue elseValue)) start
  else return condition

/-- An assignment, or an expression that binds tighter. -/
def expressionBody (inner : Level) : Parser Expr := do
  let start ← here
  let target ← conditionalBody inner
  match assignOp? (← kind) with
  | none => return target
  | some op =>
    let _ ← advance
    unless target.isAssignable do
      reportStructural .invalidAssignmentTarget "Invalid assignment target" target.span
    let value ← inner.expression
    node (Expr.mk (.assign op target value)) start

end FluxFront.Grammar
