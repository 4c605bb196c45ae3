import FluxFront.Grammar.Expr
import FluxFront.Tree.Passes

/-!
# The grammar of declarations

Most declarations start with a keyword.  One that starts with a name is told apart from an expression
by skimming a type and looking at what stands behind it:

* `Type name` followed by `;`, `=` or `,`; behind a plain type by anything; behind a pointer also by
  the parameter types of a function pointer;
* `Type{} name` and `Type(args){} name`, which instantiate the type.

A declaration of several variables gives one declaration for each.  They share the type as written,
so all but the first get a copy of it with fresh identities.
-/

namespace FluxFront.Grammar

open Token (Kind)

/-! ## Bodies -/

/-- Reports that something else stands where a declaration belongs. -/
def reportNoDeclaration (place : String) : Parser Unit := do
  let token ← current
  report .expectedDeclaration ("Expected declaration " ++ place ++ ", found " ++ token.describe)
    token.span

/-- The declarations between the braces of a body. -/
def memberBody (inner : Level) (context : Context) (what : String) : Parser (List Decl) := do
  consume .leftBrace ("Expected '\x7b' before " ++ what ++ " body")
  match ← inner.members context what with
  | none => return []
  | some members =>
    consume .rightBrace ("Expected '\x7d' after " ++ what ++ " body")
    return members

/-- A namespace. -/
def namespaceDecl (inner : Level) : Parser Decl := do
  let start ← here
  let _ ← advance
  let name ← consumeName "Expected namespace name"
  let members ← do
    if ← check .leftBrace then
      let members ← memberBody inner (.within .namespaceBody) "namespace"
      let _ ← accept .semicolon
      pure members
    else
      reportUnexpected "Expected '\x7b' after namespace name"
      pure []
  node (Decl.mk (.namespaceDecl name members)) start

/-- One entry of an inheritance list: whether it is an exclusion, and its name.  Only classes may
exclude. -/
def inheritanceEntry (isClass : Bool) : Parser (Bool × QualifiedName) := do
  let start ← here
  let excluded ← accept .bang
  let base ← qualifiedName "Expected base name"
  if excluded && !isClass then
    reportStructural .invalidExclusion
      ("Objects cannot exclude members of '" ++ base.display ++ "'") (← spanFrom start)
  return (excluded, base)

/-- A class or an object, with its inheritance list and its body or a semicolon. -/
def classOrObject (inner : Level) : Parser Decl := do
  let start ← here
  let isClass := (← advance).kind == .kwClass
  let name ← consumeName "Expected type name"
  let entries ← do
    if ← accept .colon then commaSeparated (inheritanceEntry isClass) else pure []
  let bases := (entries.filter (!·.1)).map (·.2)
  let exclusions := (entries.filter (·.1)).map (·.2)
  let isForward ← accept .semicolon
  let members ← do
    if isForward then pure []
    else
      let members ←
        if isClass then memberBody inner (.within .classBody) "class"
        else memberBody inner (.within .objectBody) "object"
      let _ ← accept .semicolon
      pure members
  node (Decl.mk (if isClass then .classDecl name bases exclusions members isForward
    else .objectDecl name bases members isForward)) start

/-! ## Copies of shared types -/

/-- A copy of a type with fresh identities. -/
def duplicateType (type : Ty) : Parser Ty := do
  let s ← get
  let (copy, nextId) := (type.edit Edit.freshCopy).run s.nextId
  set { s with nextId }
  return copy

/-! ## Structs, functions, operators -/

/-- Fields of one type with commas between their names. -/
def structFields (inner : Level) : Parser (List Binding) := do
  let start ← here
  let type ← inner.type
  let name ← consumeName "Expected field name"
  let first : Binding := { name, type, span := ← spanFrom start }
  let more ← many do
    if ← accept .comma then
      let name ← consumeName "Expected field name after ','"
      let type ← duplicateType type
      return some { name, type, span := ← spanFrom start : Binding }
    else return none
  expectSemicolon "struct field"
  return first :: more

/-- A struct. -/
def structDecl (inner : Level) : Parser Decl := do
  let start ← here
  let _ ← advance
  let name ← consumeName "Expected struct name"
  if ← accept .semicolon then node (Decl.mk (.structDecl name [] true)) start
  else
    consume .leftBrace "Expected '\x7b' or ';' after struct name"
    let fields ← bodyItems .rightBrace (structFields inner)
    consume .rightBrace "Expected '\x7d' after struct fields"
    let _ ← accept .semicolon
    node (Decl.mk (.structDecl name fields false)) start

/-- One parameter. -/
def parameter (inner : Level) : Parser Binding := do
  let start ← here
  let type ← inner.type
  let name ← consumeName "Expected parameter name"
  return { name, type, span := ← spanFrom start }

/-- The parameters of a function or an operator. -/
def parameters (inner : Level) : Parser (List Binding) := do
  consume .leftParen "Expected '(' before parameters"
  let params ← do
    if ← check .rightParen then pure [] else commaSeparated (parameter inner)
  consume .rightParen "Expected ')' after parameters"
  return params

/-- A function or its prototype. -/
def functionDecl (inner : Level) (context : Context) : Parser Decl := do
  let start ← here
  let _ ← advance
  let name ← consumeName "Expected function name"
  let params ← parameters inner
  let result ← resultType inner.type
  let body ← do
    if ← check .leftBrace then some <$> block inner context.functionBody
    else
      unless ← accept .semicolon do
        reportUnexpected "Expected '\x7b' or ';' after function signature"
      pure none
  let decl ← node (Decl.mk (.functionDecl name params result body)) start
  if context.container = .classBody then
    reportStructural .functionInClass "Functions cannot be defined in a class; use an object"
      decl.span
  return decl

/-- A user-defined operator. -/
def operatorDecl (inner : Level) (context : Context) : Parser Decl := do
  let start ← here
  let _ ← advance
  let params ← parameters inner
  consume .leftBracket "Expected '[' before operator symbol"
  let symbol ← do
    if ← checkOrEnd .rightBracket then
      reportUnexpected "Expected operator symbol"
      pure ""
    else pure (← advance).lexeme
  consume .rightBracket "Expected ']' after operator symbol"
  let result ← resultType inner.type
  let body ← block inner context.functionBody
  node (Decl.mk (.operatorDecl symbol params result body)) start

/-! ## Imports, enumerations, aliases -/

/-- The path of an import. -/
def importPath : Parser String := do
  if ← check .stringLiteral then
    let token ← advance
    match token.literal with
    | some (.string path) => return path
    | _ => return unquoted '"' token.lexeme
  else
    reportUnexpected "Expected import path string"
    return ""

/-- An import. -/
def importDecl : Parser Decl := do
  let start ← here
  let _ ← advance
  let path ← importPath
  let newName ← do
    if ← accept .kwAs then some <$> consumeName "Expected alias after 'as'" else pure none
  expectSemicolon "import"
  node (Decl.mk (.importFile path newName)) start

/-- The use of a namespace. -/
def usingDecl : Parser Decl := do
  let start ← here
  let _ ← advance
  let path ← qualifiedName "Expected namespace path after 'using'"
  expectSemicolon "using"
  node (Decl.mk (.usingPath path)) start

/-- A member of an enumeration. -/
def enumMember (inner : Level) : Parser EnumMember := do
  let start ← here
  let name ← consumeName "Expected enum member name"
  let value ← do
    if ← accept .equal then some <$> inner.expression else pure none
  return { name, value, span := ← spanFrom start }

/-- An enumeration. -/
def enumDecl (inner : Level) : Parser Decl := do
  let start ← here
  let _ ← advance
  let name ← consumeName "Expected enum name"
  consume .leftBrace "Expected '\x7b' after enum name"
  let members ← commaTerminated .rightBrace (enumMember inner)
  consume .rightBrace "Expected '\x7d' after enum members"
  let _ ← accept .semicolon
  node (Decl.mk (.enumDecl name members)) start

/-- A new name for a type. -/
def typeAlias (inner : Level) : Parser Decl := do
  let start ← here
  let _ ← advance
  let name ← consumeName "Expected type alias name"
  consume .equal "Expected '=' after type alias name"
  let type ← inner.type
  expectSemicolon "type alias"
  node (Decl.mk (.typeAlias name type)) start

/-- Raw assembly as a declaration. -/
def asmDecl : Parser Decl := do
  let start ← here
  let raw ← asmBody
  node (Decl.mk (.asm raw)) start

/-- Whether a data layout with a new name lies ahead: `data`, three tokens in braces, and `as`. -/
def dataDeclAhead (s : State) : Bool :=
  let n := if [Kind.kwSigned, .kwUnsigned].contains (s.kindAt 0) then 1 else 0
  s.kindAt n == .kwData && s.kindAt (n + 1) == .leftBrace && s.kindAt (n + 3) == .rightBrace
    && s.kindAt (n + 4) == .kwAs

/-- A new name for a data layout. -/
def dataDecl : Parser Decl := do
  let start ← here
  let layout ← dataLayout
  consume .kwAs "Expected 'as' after data type"
  let name ← consumeName "Expected data type name"
  expectSemicolon "data type declaration"
  node (Decl.mk (.data name layout)) start

/-! ## Templates -/

/-- The names between the angle brackets of a template. -/
def templateParams : Parser (List String) := do
  consume .less "Expected '<' after 'template'"
  let params ← do
    if ← checkAny [.greater, .shr] then pure []
    else commaSeparated (consumeName "Expected template parameter name")
  consumeClosingAngle "Expected '>' after template parameters"
  return params

/-- Templates, one for each declaration behind the parameters. -/
def templateDecl (inner : Level) (context : Context) : Parser (List Decl) := do
  let start ← here
  let _ ← advance
  let params ← templateParams
  let decls ← match ← inner.declaration context with
    | some decls => pure decls
    | none =>
      reportNoDeclaration "after template parameters"
      let span ← emptySpan
      let stmt ← placeholderStatement span
      pure [← nodeAt (Decl.mk (.statement stmt)) span]
  let span ← spanFrom start
  decls.mapM fun decl => nodeAt (Decl.mk (.template params decl)) span

/-! ## Variables -/

/-- A pointer followed by parameter types in parentheses points to a function; its pointee is the
result. -/
def finishFunctionPointer (inner : Level) (type : Ty) : Parser Ty := do
  match type.form with
  | .pointer pointee qualifiers =>
    if ← accept .leftParen then
      let params ← typeList inner.type .rightParen
      consume .rightParen "Expected ')' after function pointer parameter types"
      let span ← spanFrom type.span.start
      let function ← nodeAt (Ty.mk (.function params pointee)) span
      return { form := .pointer function qualifiers, span, id := type.id }
    else return type
  | _ => return type

/-- One variable with its initial value. -/
def declarator (inner : Level) (start : Location) (qualifiers : Qualifiers) (type : Ty)
    (name : String) (instantiation : Option (List Expr)) : Parser Decl := do
  let initializer ← do
    if ← accept .equal then some <$> inner.expression else pure none
  node (Decl.mk (.variable { type, name, initializer, qualifiers, instantiation })) start

/-- The rest of a variable declaration behind the first name. -/
def finishVariables (inner : Level) (start : Location) (qualifiers : Qualifiers) (type : Ty)
    (name : String) (instantiation : Option (List Expr)) : Parser (List Decl) := do
  let first ← declarator inner start qualifiers type name instantiation
  let more ← many do
    if ← accept .comma then
      let name ← consumeName "Expected variable name after ','"
      let copy ← duplicateType type
      return some (← declarator inner start qualifiers copy name none)
    else return none
  expectSemicolon "variable declaration"
  return first :: more

/-- Variables whose declaration starts with a keyword. -/
def variableDecl (inner : Level) : Parser (List Decl) := do
  let start ← here
  let qualifiers ← qualifiers
  let type ← inner.type
  let name ← consumeName "Expected variable name"
  let type ← finishFunctionPointer inner type
  finishVariables inner start qualifiers type name none

/-- The forms of declarations that start with a name. -/
inductive DeclaratorForm
  | named
  | instantiation
deriving DecidableEq, Repr

/-- Whether the token behind a declared name goes on with the declaration. -/
def declaratorFollows (type : Ty) (next : Kind) : Bool :=
  match next with
  | .semicolon | .equal | .comma => true
  | .leftParen =>
    match type.form with
    | .pointer _ _ => true
    | _ => false
  | _ =>
    match type.form with
    | .named _ | .qualified _ | .builtin _ | .data _ => true
    | _ => false

/-- Whether arguments, if any, an empty pair of braces and a name lie ahead. -/
def instantiationFollows : Parser Bool := do
  let closed ← do
    if ← accept .leftParen then
      skipGroup
      accept .rightParen
    else pure true
  return closed && (← kind) == .leftBrace && (← kindAt 1) == .rightBrace
    && (← kindAt 2) == .identifier

/-- Which form of declaration the name at the cursor starts, if any. -/
def declaratorForm (inner : Level) : Parser (Option DeclaratorForm) := lookAhead do
  let failures := (← get).failures
  let type ← inner.skim
  if (← get).failures != failures then return none
  else if (← check .identifier) && declaratorFollows type (← kindAt 1) then return some .named
  else if ← instantiationFollows then return some .instantiation
  else return none

/-- The arguments of an instantiation, if it has any. -/
def instantiationArgs (inner : Level) : Parser (List Expr) := do
  if ← accept .leftParen then
    let args ← arguments inner .rightParen
    consume .rightParen "Expected ')' after instantiation arguments"
    return args
  else return []

/-- Variables whose declaration starts with a name, or nothing if no declaration starts here. -/
def nameLedDecl (inner : Level) : Parser (Option (List Decl)) := do
  match ← declaratorForm inner with
  | none =>
    note (.retried (← current))
    return none
  | some form =>
    let start ← here
    let before ← position
    let type ← inner.type
    match form with
    | .named =>
      let name ← consumeName "Expected variable name"
      let type ← finishFunctionPointer inner type
      noteCommitted "declaration" before
      return some (← finishVariables inner start {} type name none)
    | .instantiation =>
      let args ← instantiationArgs inner
      consume .leftBrace "Expected '\x7b' in instantiation"
      consume .rightBrace "Expected '\x7d' in instantiation"
      let name ← consumeName "Expected variable name"
      noteCommitted "instantiation" before
      return some (← finishVariables inner start {} type name (some args))

/-! ## Declarations -/

/-- The kinds of tokens with which a variable declaration may start. -/
def variableStarts : List Kind :=
  [.kwConst, .kwVolatile, .kwAuto, .kwVoid, .kwData, .kwSigned, .kwUnsigned, .kwClass, .kwObject,
   .kwStruct, .kwDef]

/-- The declarations that start at the cursor, or nothing if none does; then nothing is read. -/
def declarationBody (inner : Level) (context : Context) : Parser (Option (List Decl)) := do
  let s ← get
  let named := s.kindAt 1 == .identifier
  match s.current.kind, named with
  | .kwNamespace, _ => one (namespaceDecl inner)
  | .kwClass, true | .kwObject, true => one (classOrObject inner)
  | .kwStruct, true => one (structDecl inner)
  | .kwDef, true => one (functionDecl inner context)
  | .kwOperator, _ => one (operatorDecl inner context)
  | .kwImport, _ => one importDecl
  | .kwUsing, _ => one usingDecl
  | .kwTemplate, _ => some <$> templateDecl inner context
  | .kwEnum, _ => one (enumDecl inner)
  | .kwType, _ => one (typeAlias inner)
  | .kwAsm, _ => one asmDecl
  | .identifier, _ => nameLedDecl inner
  | k, _ =>
    if dataDeclAhead s then one dataDecl
    else if variableStarts.contains k then some <$> variableDecl inner
    else return none
where
  one (decl : Parser Decl) : Parser (Option (List Decl)) := return some [← decl]

/-- The declarations that one item in a body of the given name gives. -/
def memberItem (inner : Level) (context : Context) (what : String) : Parser (List Decl) := do
  match ← declarationBody inner context with
  | some decls => return decls
  | none =>
    reportNoDeclaration ("in " ++ what ++ " body")
    return []

/-- The declarations in a body of the given name. -/
def membersBody (inner : Level) (context : Context) (what : String) : Parser (List Decl) :=
  bodyItems .rightBrace (memberItem inner context what)

end FluxFront.Grammar
