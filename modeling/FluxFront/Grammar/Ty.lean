import FluxFront.Grammar.Level

/-!
# The grammar of types

A type is a base followed by any number of `*` and `[size]` modifiers.  A base is a keyword, a data
layout, a function type, or a dotted name with optional template arguments.

The productions take two entries, one for types inside the type and one for array sizes, because a
type is read in two ways: in full, or skimmed over while looking ahead, when the sizes are skipped.
-/

namespace FluxFront.Grammar

open Token (Kind)

/-- The kinds of tokens that start a type. -/
def typeStarts : List Kind :=
  [.identifier, .kwVoid, .kwAuto, .kwClass, .kwObject, .kwStruct, .kwData, .kwSigned, .kwUnsigned,
   .kwDef]

/-- The next segment of a dotted name, if there is one. -/
def segment? : Parser (Option String) := do
  if (← check .dot) && (← kindAt 1) == .identifier then
    let _ ← advance
    return some (← advance).lexeme
  else return none

/-- A dotted name. -/
def qualifiedName (expected : String) : Parser QualifiedName := do
  let head ← consumeName expected
  let tail ← many segment?
  return { head, tail }

/-- The qualifiers together with the one ahead, if there is one. -/
def qualifier? (q : Qualifiers) : Parser (Option Qualifiers) := do
  match ← acceptAny [.kwConst, .kwVolatile] with
  | some .kwConst => return some { q with isConst := true }
  | some _ => return some { q with isVolatile := true }
  | none => return none

/-- Any number of `const` and `volatile`. -/
def qualifiers : Parser Qualifiers := iterate qualifier? {}

/-- The number of bits of a data layout. -/
def bitWidth : Parser UInt64 := do
  if ← check .intLiteral then
    match (← advance).literal with
    | some (.int width) => return width
    | _ => return 0
  else
    reportUnexpected "Expected bit width"
    return 0

/-- A data layout; one without a sign is unsigned. -/
def dataLayout : Parser DataLayout := do
  let sign ← acceptAny [.kwSigned, .kwUnsigned]
  consume .kwData "Expected 'data'"
  consume .leftBrace "Expected '\x7b' after 'data'"
  let bitWidth ← bitWidth
  consume .rightBrace "Expected '\x7d' after bit width"
  return { bitWidth, isSigned := sign == some .kwSigned }

/-- A type named by a keyword. -/
def builtinType (builtin : Builtin) : Parser Ty := do
  let start ← here
  let _ ← advance
  node (Ty.mk (.builtin builtin)) start

/-- Types with commas between them, up to a closing token. -/
def typeList (type : Parser Ty) (close : Kind) : Parser (List Ty) := do
  if ← check close then return [] else commaSeparated type

/-- The type behind an arrow, or `void` without one. -/
def resultType (type : Parser Ty) : Parser Ty := do
  if ← accept .arrow then type
  else nodeAt (Ty.mk (.builtin .void)) (← emptySpan)

/-- A function type, from its keyword on. -/
def functionType (type : Parser Ty) : Parser Ty := do
  let start ← here
  let _ ← advance
  consume .leftParen "Expected '(' after 'def' in function type"
  let params ← typeList type .rightParen
  consume .rightParen "Expected ')' after parameter types"
  let result ← resultType type
  node (Ty.mk (.function params result)) start

/-- A named type with its template arguments. -/
def namedType (type : Parser Ty) : Parser Ty := do
  let start ← here
  let name ← qualifiedName "Expected type name"
  let base ← node (Ty.mk (if name.isSimple then .named name.head else .qualified name)) start
  if ← accept .less then
    let args ← do
      if ← checkAny [.greater, .shr] then pure [] else commaSeparated type
    consumeClosingAngle "Expected '>' after template arguments"
    node (Ty.mk (.applied base args)) start
  else return base

/-- A type without modifiers. -/
def baseType (type : Parser Ty) : Parser Ty := do
  match ← kind with
  | .kwVoid => builtinType .void
  | .kwAuto => builtinType .auto
  | .kwClass => builtinType .anyClass
  | .kwObject => builtinType .anyObject
  | .kwStruct => builtinType .anyStruct
  | .kwData | .kwSigned | .kwUnsigned =>
    let start ← here
    let layout ← dataLayout
    node (Ty.mk (.data layout)) start
  | .kwDef => functionType type
  | .identifier => namedType type
  | _ =>
    let token ← current
    report .expectedType ("Expected type, found " ++ token.describe) token.span
    nodeAt (Ty.mk .placeholder) (← emptySpan)

/-- A pointer to a type that starts at a place, with the qualifiers ahead. -/
def pointerTo (pointee : Ty) (start : Location) : Parser Ty := do
  let qualifiers ← qualifiers
  node (Ty.mk (.pointer pointee qualifiers)) start

/-- The type with the modifier ahead, if there is one. -/
def modifiedType? (size : Parser Expr) (start : Location) (type : Ty) : Parser (Option Ty) := do
  match ← kind with
  | .star =>
    let _ ← advance
    return some (← pointerTo type start)
  | .starStar =>
    let _ ← advance
    let inner ← node (Ty.mk (.pointer type {})) start
    return some (← pointerTo inner start)
  | .leftBracket =>
    let _ ← advance
    let size ← do
      if ← check .rightBracket then pure none else some <$> size
    consume .rightBracket "Expected ']' after array size"
    return some (← node (Ty.mk (.array type size)) start)
  | _ => return none

/-- A type, given the entries for array sizes and for types inside it. -/
def typeBody (size : Parser Expr) (type : Parser Ty) : Parser Ty := do
  let start ← here
  let base ← baseType type
  iterate (modifiedType? size start) base

/-- An array size that is skipped. -/
def skippedSize : Parser Expr := do
  let start ← here
  skipGroup
  node (Expr.mk .placeholder) start

/-- An array size, which is skipped while a type is skimmed. -/
def arraySize (expression : Parser Expr) : Parser Expr := do
  if (← get).skimming then skippedSize else expression

end FluxFront.Grammar
