import FluxFront.Decimal.Binary64
import FluxFront.Source.Span
import FluxFront.Tree.Operator

/-!
# Syntax trees

Types, expressions, statements and declarations are four mutually recursive sorts.  A node of each
sort is a *form* together with the span it was read from and its identity, a number given out in the
order of construction.  Blocks, bindings, cases and the like carry a span but are not nodes.

A `placeholder` stands where the text could not be read.
-/

namespace FluxFront

/-- The identity of a node. -/
abbrev NodeId := Nat

/-- A dotted name with at least one segment. -/
structure QualifiedName where
  head : String
  tail : List String := []
deriving DecidableEq, Repr, Inhabited

namespace QualifiedName

/-- All segments from left to right. -/
def segments (n : QualifiedName) : List String := n.head :: n.tail

/-- Whether the name has one segment only. -/
def isSimple (n : QualifiedName) : Bool := n.tail.isEmpty

/-- The last segment. -/
def last (n : QualifiedName) : String := n.tail.getLastD n.head

/-- The segments with dots between them. -/
def display (n : QualifiedName) : String := ".".intercalate n.segments

end QualifiedName

/-- Types that are named by a keyword. -/
inductive Builtin
  | void
  | auto
  | anyClass
  | anyObject
  | anyStruct
deriving DecidableEq, Repr

/-- The keyword of a builtin type. -/
def Builtin.keyword : Builtin → String
  | void => "void"
  | auto => "auto"
  | anyClass => "class"
  | anyObject => "object"
  | anyStruct => "struct"

/-- The qualifiers of a variable or of a pointer. -/
structure Qualifiers where
  isConst : Bool := false
  isVolatile : Bool := false
deriving DecidableEq, Repr, Inhabited

/-- The layout `data` of a number of bits. -/
structure DataLayout where
  bitWidth : UInt64
  isSigned : Bool
deriving DecidableEq, Repr, Inhabited

/-- Literal values in expressions. -/
inductive Literal
  | int (value : UInt64)
  | float (value : Binary64)
  | bool (value : Bool)
  | char (value : Char)
  | string (value : String)
  /-- The binary digits of a bit literal. -/
  | bits (digits : String)
deriving DecidableEq, Repr

/-- The three locking statements. -/
inductive LockKind
  | lock
  | preLock
  | postLock
deriving DecidableEq, Repr

/-- The keyword of a locking statement. -/
def LockKind.keyword : LockKind → String
  | lock => "lock"
  | preLock => "prelock"
  | postLock => "postlock"

mutual

/-- A type. -/
structure Ty where
  form : Ty.Form
  span : Span
  id : NodeId

/-- The forms of types. -/
inductive Ty.Form
  | builtin (name : Builtin)
  | named (name : String)
  | qualified (name : QualifiedName)
  | pointer (pointee : Ty) (qualifiers : Qualifiers)
  | array (element : Ty) (size : Option Expr)
  | function (params : List Ty) (result : Ty)
  | data (layout : DataLayout)
  /-- A template applied to arguments. -/
  | applied (base : Ty) (args : List Ty)
  | placeholder

/-- An expression. -/
structure Expr where
  form : Expr.Form
  span : Span
  id : NodeId

/-- The forms of expressions. -/
inductive Expr.Form
  | literal (value : Literal)
  | identifier (name : String)
  | unary (op : UnaryOp) (operand : Expr) (placement : Placement)
  | binary (op : BinaryOp) (left right : Expr)
  | assign (op : AssignOp) (target value : Expr)
  | conditional (condition thenValue elseValue : Expr)
  | call (callee : Expr) (args : List Expr)
  | member (object : Expr) (name : String)
  | subscript (object index : Expr)
  | cast (target : Ty) (operand : Expr)
  | sizeOf (type : Ty)
  | typeOf (inner : Expr)
  /-- A user-defined operator between two operands. -/
  | opCall (left : Expr) (operator : String) (right : Expr)
  /-- Text with slots, cut at the slots, and the values that go there. -/
  | interpolated (parts : List String) (values : List Expr)
  | array (elements : List Expr)
  | dictionary (entries : List Entry)
  | group (inner : Expr)
  | block (statements : List Stmt)
  | placeholder

/-- One key and its value in a dictionary. -/
structure Entry where
  key : Expr
  value : Expr

/-- A statement. -/
structure Stmt where
  form : Stmt.Form
  span : Span
  id : NodeId

/-- The forms of statements. -/
inductive Stmt.Form
  | expression (expr : Expr)
  | block (body : Block)
  | variable (var : Variable)
  | ifElse (condition : Expr) (thenBranch : Stmt) (elseBranch : Option Stmt)
  | whileLoop (condition : Expr) (body : Stmt)
  | doWhile (body : Stmt) (condition : Expr)
  /-- A loop with three clauses; the first has one statement for each variable it declares. -/
  | forLoop (init : List Stmt) (condition increment : Option Expr) (body : Stmt)
  | forRange (var : String) (index : Option String) (range : Expr) (body : Stmt)
  | switch (subject : Expr) (cases : List Case)
  | returnValue (value : Option Expr)
  | breakLoop
  | continueLoop
  | tryCatch (body : Block) (handlers : List Handler)
  | throwValue (message : Option Expr) (body : Option Block)
  | assertion (condition : Expr)
  | asm (raw : String)
  | lock (kind : LockKind) (scope : QualifiedName) (body : Option Block)
  /-- A declaration where none may stand. -/
  | misplaced (decl : Decl)

/-- Statements between braces. -/
structure Block where
  statements : List Stmt
  span : Span

/-- One case of a switch; the default case has no pattern. -/
structure Case where
  pattern : Option Expr
  body : Block
  span : Span

/-- One `catch` of a `try`. -/
structure Handler where
  exception : Option Ty
  binding : Option String
  body : Block
  span : Span

/-- A variable with its optional initial value.  `instantiation` holds the arguments of a variable
that is declared by instantiating its type. -/
structure Variable where
  type : Ty
  name : String
  initializer : Option Expr
  qualifiers : Qualifiers
  instantiation : Option (List Expr)

/-- A declaration. -/
structure Decl where
  form : Decl.Form
  span : Span
  id : NodeId

/-- The forms of declarations. -/
inductive Decl.Form
  | importFile (path : String) (newName : Option String)
  | usingPath (path : QualifiedName)
  | namespaceDecl (name : String) (members : List Decl)
  | classDecl (name : String) (bases exclusions : List QualifiedName) (members : List Decl)
      (isForward : Bool)
  | objectDecl (name : String) (bases : List QualifiedName) (members : List Decl)
      (isForward : Bool)
  | structDecl (name : String) (fields : List Binding) (isForward : Bool)
  /-- A function; one without a body is a prototype. -/
  | functionDecl (name : String) (params : List Binding) (result : Ty) (body : Option Block)
  | operatorDecl (symbol : String) (params : List Binding) (result : Ty) (body : Block)
  | variable (var : Variable)
  | template (params : List String) (inner : Decl)
  | enumDecl (name : String) (members : List EnumMember)
  | typeAlias (name : String) (type : Ty)
  | data (name : String) (layout : DataLayout)
  | asm (raw : String)
  /-- A statement outside of every function. -/
  | statement (stmt : Stmt)

/-- A typed name: a parameter of a function or a field of a struct. -/
structure Binding where
  name : String
  type : Ty
  span : Span

/-- A member of an enumeration with its optional value. -/
structure EnumMember where
  name : String
  value : Option Expr
  span : Span

end

/-- A whole source text. -/
structure Program where
  declarations : List Decl
  span : Span

/-- Whether nothing is declared. -/
def Program.isEmpty (p : Program) : Bool := p.declarations.isEmpty

/-- The default case of a switch has no pattern. -/
def Case.isDefault (c : Case) : Bool := c.pattern.isNone

/-- Whether a type could not be read. -/
def Ty.isPlaceholder (t : Ty) : Bool :=
  match t.form with
  | .placeholder => true
  | _ => false

/-- The parameter and result types of a pointer to a function. -/
def Ty.functionPointer? (t : Ty) : Option (List Ty × Ty) :=
  match t.form with
  | .pointer ⟨.function params result, _, _⟩ _ => some (params, result)
  | _ => none

/-- Whether an expression could not be read. -/
def Expr.isPlaceholder (e : Expr) : Bool :=
  match e.form with
  | .placeholder => true
  | _ => false

/-- Whether an expression may stand on the left of an assignment. -/
def Expr.isAssignable : Expr → Bool
  | ⟨.identifier _, _, _⟩ | ⟨.member _ _, _, _⟩ | ⟨.subscript _ _, _, _⟩ => true
  | ⟨.unary op _ _, _, _⟩ => op == .deref
  | ⟨.group inner, _, _⟩ => inner.isAssignable
  | _ => false

/-- The name a declaration introduces; a template has the name of what it wraps. -/
def Decl.name? : Decl → Option String
  | ⟨.namespaceDecl name _, _, _⟩ | ⟨.classDecl name _ _ _ _, _, _⟩
  | ⟨.objectDecl name _ _ _, _, _⟩ | ⟨.structDecl name _ _, _, _⟩
  | ⟨.functionDecl name _ _ _, _, _⟩ | ⟨.variable ⟨_, name, _, _, _⟩, _, _⟩
  | ⟨.enumDecl name _, _, _⟩ | ⟨.typeAlias name _, _, _⟩ | ⟨.data name _, _, _⟩ => some name
  | ⟨.template _ inner, _, _⟩ => inner.name?
  | ⟨.importFile _ newName, _, _⟩ => newName
  | ⟨.usingPath _, _, _⟩ | ⟨.operatorDecl _ _ _ _, _, _⟩ | ⟨.asm _, _, _⟩
  | ⟨.statement _, _, _⟩ => none

end FluxFront
