import FluxFront.Tree.Basic

/-!
# Editing trees

One pass over a tree from the root down and from left to right that may give every node a new label,
rename what expressions and types refer to, drop the parentheses around expressions, replace nodes by
placeholders, and move the spans of what is no node.  A node is edited before its children, and a node
that became a placeholder has no children to edit.

* **Program**: an `Edit` says what to do at a node, with a state that is threaded through the nodes
  in the order they are met; `Ty.edit`, `Expr.edit`, `Stmt.edit`, `Decl.edit` and `Program.edit` do
  it.
* **Parentheses**: when they are dropped, the expression inside takes the label of the group around
  it, so a label is handed down along the chain of groups.
-/

namespace FluxFront

/-- The four sorts of nodes. -/
inductive NodeSort
  | declaration
  | statement
  | expression
  | type
deriving DecidableEq, Repr

/-- The span and the identity of a node. -/
structure Label where
  span : Span
  id : NodeId
deriving DecidableEq, Repr, Inhabited

/-- What an editing pass does at a node.  Each part leaves the node alone unless it is given. -/
structure Edit (σ : Type) where
  /-- The new label of a node of a sort. -/
  label : NodeSort → Label → StateM σ Label := fun _ label => pure label
  /-- The new name in an identifier expression. -/
  identifier : String → String := id
  /-- The new name in a named type. -/
  typeName : String → String := id
  /-- Whether the expression or type with an identity becomes a placeholder. -/
  blanks : NodeId → Bool := fun _ => false
  /-- Whether parentheses are dropped. -/
  ungroups : Bool := false
  /-- The new span of something that is no node: a block, a case, a typed name. -/
  place : Span → Span := id

variable {σ : Type}

mutual

/-- Edits a type. -/
def Ty.edit (k : Edit σ) : Ty → StateM σ Ty
  | ⟨form, span, id⟩ => do
    let label ← k.label .type ⟨span, id⟩
    let form ← if k.blanks id then pure .placeholder else form.edit k
    return ⟨form, label.span, label.id⟩

/-- Edits what a type is made of. -/
def Ty.Form.edit (k : Edit σ) : Ty.Form → StateM σ Ty.Form
  | .named name => return .named (k.typeName name)
  | .pointer pointee qualifiers => return .pointer (← pointee.edit k) qualifiers
  | .array element size => return .array (← element.edit k) (← Expr.editOption k size)
  | .function params result => return .function (← Ty.editList k params) (← result.edit k)
  | .applied base args => return .applied (← base.edit k) (← Ty.editList k args)
  | .builtin name => return .builtin name
  | .qualified name => return .qualified name
  | .data layout => return .data layout
  | .placeholder => return .placeholder

/-- Edits types from left to right. -/
def Ty.editList (k : Edit σ) : List Ty → StateM σ (List Ty)
  | [] => return []
  | type :: more => return (← type.edit k) :: (← Ty.editList k more)

/-- Edits an expression, which takes the given label instead of its own if there is one. -/
def Expr.editAs (k : Edit σ) (outer : Option Label) : Expr → StateM σ Expr
  | ⟨form, span, id⟩ => do
    let label ← match outer with
      | some label => pure label
      | none => k.label .expression ⟨span, id⟩
    if outer.isNone && k.blanks id then return ⟨.placeholder, label.span, label.id⟩
    else form.editAs k label

/-- Edits what an expression is made of and puts it under a label. -/
def Expr.Form.editAs (k : Edit σ) (label : Label) : Expr.Form → StateM σ Expr
  | .group inner =>
    if k.ungroups then inner.editAs k (some label)
    else return ⟨.group (← inner.editAs k none), label.span, label.id⟩
  | .identifier name => return ⟨.identifier (k.identifier name), label.span, label.id⟩
  | .unary op operand placement =>
    return ⟨.unary op (← operand.editAs k none) placement, label.span, label.id⟩
  | .binary op left right =>
    return ⟨.binary op (← left.editAs k none) (← right.editAs k none), label.span, label.id⟩
  | .assign op target value =>
    return ⟨.assign op (← target.editAs k none) (← value.editAs k none), label.span, label.id⟩
  | .conditional condition thenValue elseValue =>
    return ⟨.conditional (← condition.editAs k none) (← thenValue.editAs k none)
      (← elseValue.editAs k none), label.span, label.id⟩
  | .call callee args =>
    return ⟨.call (← callee.editAs k none) (← Expr.editList k args), label.span, label.id⟩
  | .member object name =>
    return ⟨.member (← object.editAs k none) name, label.span, label.id⟩
  | .subscript object index =>
    return ⟨.subscript (← object.editAs k none) (← index.editAs k none), label.span, label.id⟩
  | .cast target operand =>
    return ⟨.cast (← target.edit k) (← operand.editAs k none), label.span, label.id⟩
  | .sizeOf type => return ⟨.sizeOf (← type.edit k), label.span, label.id⟩
  | .typeOf inner => return ⟨.typeOf (← inner.editAs k none), label.span, label.id⟩
  | .opCall left operator right =>
    return ⟨.opCall (← left.editAs k none) operator (← right.editAs k none), label.span, label.id⟩
  | .interpolated parts values =>
    return ⟨.interpolated parts (← Expr.editList k values), label.span, label.id⟩
  | .array elements => return ⟨.array (← Expr.editList k elements), label.span, label.id⟩
  | .dictionary entries => return ⟨.dictionary (← Entry.editList k entries), label.span, label.id⟩
  | .block statements => return ⟨.block (← Stmt.editList k statements), label.span, label.id⟩
  | .literal value => return ⟨.literal value, label.span, label.id⟩
  | .placeholder => return ⟨.placeholder, label.span, label.id⟩

/-- Edits expressions from left to right. -/
def Expr.editList (k : Edit σ) : List Expr → StateM σ (List Expr)
  | [] => return []
  | expr :: more => return (← expr.editAs k none) :: (← Expr.editList k more)

/-- Edits an expression that may be absent. -/
def Expr.editOption (k : Edit σ) : Option Expr → StateM σ (Option Expr)
  | none => return none
  | some expr => return some (← expr.editAs k none)

/-- Edits the entries of a dictionary. -/
def Entry.editList (k : Edit σ) : List Entry → StateM σ (List Entry)
  | [] => return []
  | ⟨key, value⟩ :: more =>
    return ⟨← key.editAs k none, ← value.editAs k none⟩ :: (← Entry.editList k more)

/-- Edits a statement. -/
def Stmt.edit (k : Edit σ) : Stmt → StateM σ Stmt
  | ⟨form, span, id⟩ => do
    let label ← k.label .statement ⟨span, id⟩
    return ⟨← form.edit k, label.span, label.id⟩

/-- Edits what a statement is made of. -/
def Stmt.Form.edit (k : Edit σ) : Stmt.Form → StateM σ Stmt.Form
  | .expression expr => return .expression (← expr.editAs k none)
  | .block body => return .block (← body.edit k)
  | .variable var => return .variable (← var.edit k)
  | .ifElse condition thenBranch elseBranch =>
    return .ifElse (← condition.editAs k none) (← thenBranch.edit k)
      (← Stmt.editOption k elseBranch)
  | .whileLoop condition body => return .whileLoop (← condition.editAs k none) (← body.edit k)
  | .doWhile body condition => return .doWhile (← body.edit k) (← condition.editAs k none)
  | .forLoop init condition increment body =>
    return .forLoop (← Stmt.editList k init) (← Expr.editOption k condition)
      (← Expr.editOption k increment) (← body.edit k)
  | .forRange var index range body =>
    return .forRange var index (← range.editAs k none) (← body.edit k)
  | .switch subject cases => return .switch (← subject.editAs k none) (← Case.editList k cases)
  | .returnValue value => return .returnValue (← Expr.editOption k value)
  | .tryCatch body handlers => return .tryCatch (← body.edit k) (← Handler.editList k handlers)
  | .throwValue message body =>
    return .throwValue (← Expr.editOption k message) (← Block.editOption k body)
  | .assertion condition => return .assertion (← condition.editAs k none)
  | .lock kind scope body => return .lock kind scope (← Block.editOption k body)
  | .misplaced decl => return .misplaced (← decl.edit k)
  | .breakLoop => return .breakLoop
  | .continueLoop => return .continueLoop
  | .asm raw => return .asm raw

/-- Edits statements from left to right. -/
def Stmt.editList (k : Edit σ) : List Stmt → StateM σ (List Stmt)
  | [] => return []
  | stmt :: more => return (← stmt.edit k) :: (← Stmt.editList k more)

/-- Edits a statement that may be absent. -/
def Stmt.editOption (k : Edit σ) : Option Stmt → StateM σ (Option Stmt)
  | none => return none
  | some stmt => return some (← stmt.edit k)

/-- Edits the statements of a block. -/
def Block.edit (k : Edit σ) : Block → StateM σ Block
  | ⟨statements, span⟩ => return ⟨← Stmt.editList k statements, k.place span⟩

/-- Edits a block that may be absent. -/
def Block.editOption (k : Edit σ) : Option Block → StateM σ (Option Block)
  | none => return none
  | some body => return some (← body.edit k)

/-- Edits the cases of a switch. -/
def Case.editList (k : Edit σ) : List Case → StateM σ (List Case)
  | [] => return []
  | ⟨pattern, body, span⟩ :: more =>
    return ⟨← Expr.editOption k pattern, ← body.edit k, k.place span⟩ :: (← Case.editList k more)

/-- Edits the handlers of a `try`. -/
def Handler.editList (k : Edit σ) : List Handler → StateM σ (List Handler)
  | [] => return []
  | ⟨exception, binding, body, span⟩ :: more =>
    return ⟨← Ty.editOption k exception, binding, ← body.edit k, k.place span⟩
      :: (← Handler.editList k more)

/-- Edits a type that may be absent. -/
def Ty.editOption (k : Edit σ) : Option Ty → StateM σ (Option Ty)
  | none => return none
  | some type => return some (← type.edit k)

/-- Edits a variable: its type, the arguments of its instantiation, then its initial value. -/
def Variable.edit (k : Edit σ) : Variable → StateM σ Variable
  | ⟨type, name, initializer, qualifiers, instantiation⟩ => do
    let type ← type.edit k
    let instantiation ← Expr.editListOption k instantiation
    let initializer ← Expr.editOption k initializer
    return ⟨type, name, initializer, qualifiers, instantiation⟩

/-- Edits a list of expressions that may be absent. -/
def Expr.editListOption (k : Edit σ) : Option (List Expr) → StateM σ (Option (List Expr))
  | none => return none
  | some exprs => return some (← Expr.editList k exprs)

/-- Edits a declaration. -/
def Decl.edit (k : Edit σ) : Decl → StateM σ Decl
  | ⟨form, span, id⟩ => do
    let label ← k.label .declaration ⟨span, id⟩
    return ⟨← form.edit k, label.span, label.id⟩

/-- Edits what a declaration is made of. -/
def Decl.Form.edit (k : Edit σ) : Decl.Form → StateM σ Decl.Form
  | .namespaceDecl name members => return .namespaceDecl name (← Decl.editList k members)
  | .classDecl name bases exclusions members isForward =>
    return .classDecl name bases exclusions (← Decl.editList k members) isForward
  | .objectDecl name bases members isForward =>
    return .objectDecl name bases (← Decl.editList k members) isForward
  | .structDecl name fields isForward =>
    return .structDecl name (← Binding.editList k fields) isForward
  | .functionDecl name params result body =>
    return .functionDecl name (← Binding.editList k params) (← result.edit k)
      (← Block.editOption k body)
  | .operatorDecl symbol params result body =>
    return .operatorDecl symbol (← Binding.editList k params) (← result.edit k) (← body.edit k)
  | .variable var => return .variable (← var.edit k)
  | .template params inner => return .template params (← inner.edit k)
  | .enumDecl name members => return .enumDecl name (← EnumMember.editList k members)
  | .typeAlias name type => return .typeAlias name (← type.edit k)
  | .statement stmt => return .statement (← stmt.edit k)
  | .importFile path newName => return .importFile path newName
  | .usingPath path => return .usingPath path
  | .data name layout => return .data name layout
  | .asm raw => return .asm raw

/-- Edits declarations from left to right. -/
def Decl.editList (k : Edit σ) : List Decl → StateM σ (List Decl)
  | [] => return []
  | decl :: more => return (← decl.edit k) :: (← Decl.editList k more)

/-- Edits typed names. -/
def Binding.editList (k : Edit σ) : List Binding → StateM σ (List Binding)
  | [] => return []
  | ⟨name, type, span⟩ :: more =>
    return ⟨name, ← type.edit k, k.place span⟩ :: (← Binding.editList k more)

/-- Edits the members of an enumeration. -/
def EnumMember.editList (k : Edit σ) : List EnumMember → StateM σ (List EnumMember)
  | [] => return []
  | ⟨name, value, span⟩ :: more =>
    return ⟨name, ← Expr.editOption k value, k.place span⟩ :: (← EnumMember.editList k more)

end

/-- Edits an expression. -/
def Expr.edit (k : Edit σ) (e : Expr) : StateM σ Expr := e.editAs k none

/-- Edits a whole program. -/
def Program.edit (k : Edit σ) (p : Program) : StateM σ Program :=
  return { declarations := ← Decl.editList k p.declarations, span := k.place p.span }

end FluxFront
