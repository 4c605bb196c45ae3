import FluxFront.Print.Leaf

/-!
# Printing trees

Source text for every node, in one canonical layout: four blanks for a level of indentation, one
declaration for a variable, and parentheses only where the shape of the tree needs them.

* **Strength**: `Expr.strength` says how tightly an expression holds together.  Every position asks
  for a least strength, and an operand that is weaker goes into parentheses.
* **Layout**: a printer takes the level of indentation of the line it stands on.  Blocks go on at the
  end of that line; other bodies take a line of their own one level further in.
-/

namespace FluxFront

/-! ## Strength -/

namespace Print

/-- The least strength asked for where anything may stand. -/
def assignStrength : Nat := 1

/-- The strength of a conditional expression. -/
def conditionalStrength : Nat := 2

/-- The strength of a binary operator. -/
def binaryStrength (op : BinaryOp) : Nat := 3 + op.precedence

/-- The strength of an operator in front of its operand, and of a cast. -/
def leadingStrength : Nat := 15

/-- The strength of an operator behind its operand. -/
def trailingStrength : Nat := 16

/-- The strength of a call, a member or a subscript. -/
def callStrength : Nat := 17

/-- The strength of everything else. -/
def primaryStrength : Nat := 18

end Print

open Print

/-- How tightly an expression holds together. -/
def Expr.strength (e : Expr) : Nat :=
  match e.form with
  | .assign _ _ _ => assignStrength
  | .conditional _ _ _ => conditionalStrength
  | .binary op _ _ => binaryStrength op
  | .unary _ _ .before | .cast _ _ => leadingStrength
  | .unary _ _ .after => trailingStrength
  | .call _ _ | .member _ _ | .subscript _ _ => callStrength
  | _ => primaryStrength

namespace Print

/-- A text, in parentheses if its expression is weaker than asked for. -/
def operand (least : Nat) (e : Expr) (text : String) : String :=
  if e.strength < least then "(" ++ text ++ ")" else text

/-- Whether an operator in front of a text would become part of another token. -/
def merges (op : UnaryOp) (text : String) : Bool :=
  match op.symbol.toList.getLast?, text.toList.head? with
  | some '-', some '-' | some '+', some '+' => true
  | _, _ => false

/-- An operator in front of its operand. -/
def leading (op : UnaryOp) (text : String) : String :=
  op.symbol ++ (if merges op text then " " else "") ++ text

/-- The strengths a binary operator asks of its left and its right operand. -/
def binarySides (op : BinaryOp) : Nat × Nat :=
  if op.isRightAssociative then (binaryStrength op + 1, binaryStrength op)
  else (binaryStrength op, binaryStrength op + 1)

/-- The initial value of a variable, if it has one. -/
def initializer : Option String → String
  | none => ""
  | some text => " = " ++ text

end Print

/-- Whether a statement is a block. -/
def Stmt.isBlock (s : Stmt) : Bool :=
  match s.form with
  | .block _ => true
  | _ => false

/-- Whether a statement is a choice. -/
def Stmt.isIf (s : Stmt) : Bool :=
  match s.form with
  | .ifElse _ _ _ => true
  | _ => false

namespace Print

/-- The body of a loop or a branch: a block goes on in the line, anything else takes a line of its
own one level further in. -/
def body (level : Nat) (isBlock : Bool) (print : Nat → String) : String :=
  if isBlock then " " ++ print level else "\n" ++ pad (level + 1) ++ print (level + 1)

/-- What stands between a body and the keyword behind it. -/
def behindBody (level : Nat) (isBlock : Bool) : String :=
  if isBlock then " " else "\n" ++ pad level

end Print

/-! ## Printers -/

mutual

/-- A type. -/
def Ty.print : Ty → Nat → String
  | ⟨.builtin name, _, _⟩, _ => name.keyword
  | ⟨.named name, _, _⟩, _ => name
  | ⟨.qualified name, _, _⟩, _ => name.display
  | ⟨.pointer pointee qualifiers, _, _⟩, level =>
    pointee.print level ++ "*" ++ pointerQualifiers qualifiers
  | ⟨.array element size, _, _⟩, level =>
    element.print level ++ "[" ++ (Expr.printOption size level).getD "" ++ "]"
  | ⟨.function params result, _, _⟩, level =>
    "def(" ++ separated (Ty.printList params level) ++ ") -> " ++ result.print level
  | ⟨.data layout, _, _⟩, _ => dataLayout layout
  | ⟨.applied base args, _, _⟩, level =>
    base.print level ++ "<" ++ separated (Ty.printList args level) ++ ">"
  | ⟨.placeholder, _, _⟩, _ => "/* missing type */"

/-- Types one by one. -/
def Ty.printList : List Ty → Nat → List String
  | [], _ => []
  | type :: more, level => type.print level :: Ty.printList more level

/-- An expression. -/
def Expr.print : Expr → Nat → String
  | ⟨.literal value, _, _⟩, _ => literal value
  | ⟨.identifier name, _, _⟩, _ => name
  | ⟨.unary op e .before, _, _⟩, level => leading op (operand leadingStrength e (e.print level))
  | ⟨.unary op e .after, _, _⟩, level => operand trailingStrength e (e.print level) ++ op.symbol
  | ⟨.binary op left right, _, _⟩, level =>
    operand (binarySides op).1 left (left.print level) ++ " " ++ op.symbol ++ " "
      ++ operand (binarySides op).2 right (right.print level)
  | ⟨.assign op target value, _, _⟩, level =>
    operand conditionalStrength target (target.print level) ++ " " ++ op.symbol ++ " "
      ++ operand assignStrength value (value.print level)
  | ⟨.conditional c t e, _, _⟩, level =>
    operand (binaryStrength .or) c (c.print level) ++ " ? "
      ++ operand assignStrength t (t.print level) ++ " : "
      ++ operand conditionalStrength e (e.print level)
  | ⟨.call callee args, _, _⟩, level =>
    operand callStrength callee (callee.print level) ++ "("
      ++ separated (Expr.printList args level) ++ ")"
  | ⟨.member object name, _, _⟩, level =>
    operand callStrength object (object.print level) ++ "." ++ name
  | ⟨.subscript object index, _, _⟩, level =>
    operand callStrength object (object.print level) ++ "[" ++ index.print level ++ "]"
  | ⟨.cast target e, _, _⟩, level =>
    "(" ++ target.print level ++ ")" ++ operand leadingStrength e (e.print level)
  | ⟨.sizeOf type, _, _⟩, level => "sizeof(" ++ type.print level ++ ")"
  | ⟨.typeOf inner, _, _⟩, level => "typeof(" ++ inner.print level ++ ")"
  | ⟨.opCall left operator right, _, _⟩, level =>
    "op<" ++ operand leadingStrength left (left.print level) ++ " " ++ operator ++ " "
      ++ operand leadingStrength right (right.print level) ++ ">"
  | ⟨.interpolated parts values, _, _⟩, level => interpolated parts (Expr.printList values level)
  | ⟨.array elements, _, _⟩, level => "[" ++ separated (Expr.printList elements level) ++ "]"
  | ⟨.dictionary entries, _, _⟩, level =>
    "\x7b" ++ separated (Entry.printList entries level) ++ "\x7d"
  | ⟨.group inner, _, _⟩, level => "(" ++ inner.print level ++ ")"
  | ⟨.block statements, _, _⟩, level => braced level (Stmt.printList statements (level + 1))
  | ⟨.placeholder, _, _⟩, _ => "/* missing */"

/-- Expressions one by one. -/
def Expr.printList : List Expr → Nat → List String
  | [], _ => []
  | expr :: more, level => expr.print level :: Expr.printList more level

/-- An expression that may be absent. -/
def Expr.printOption : Option Expr → Nat → Option String
  | none, _ => none
  | some expr, level => some (expr.print level)

/-- Dictionary entries one by one. -/
def Entry.printList : List Entry → Nat → List String
  | [], _ => []
  | ⟨key, value⟩ :: more, level =>
    (key.print level ++ ": " ++ value.print level) :: Entry.printList more level

/-- A statement, from where it stands on its line. -/
def Stmt.print : Stmt → Nat → String
  | ⟨.expression expr, _, _⟩, level => expr.print level ++ ";"
  | ⟨.block body, _, _⟩, level => body.print level
  | ⟨.variable var, _, _⟩, level => var.print level ++ ";"
  | ⟨.ifElse c t none, _, _⟩, level =>
    "if (" ++ c.print level ++ ")" ++ Print.body level t.isBlock (t.print ·)
  | ⟨.ifElse c t (some e), _, _⟩, level =>
    "if (" ++ c.print level ++ ")" ++ Print.body level t.isBlock (t.print ·)
      ++ behindBody level t.isBlock ++ "else"
      ++ (if e.isIf then " " ++ e.print level else Print.body level e.isBlock (e.print ·))
  | ⟨.whileLoop c b, _, _⟩, level =>
    "while (" ++ c.print level ++ ")" ++ Print.body level b.isBlock (b.print ·)
  | ⟨.doWhile b c, _, _⟩, level =>
    "do" ++ Print.body level b.isBlock (b.print ·) ++ behindBody level b.isBlock
      ++ "while (" ++ c.print level ++ ");"
  | ⟨.forLoop init c i b, _, _⟩, level =>
    "for (" ++ Stmt.printInit init false level ++ ";"
      ++ ((Expr.printOption c level).map (" " ++ ·)).getD "" ++ ";"
      ++ ((Expr.printOption i level).map (" " ++ ·)).getD "" ++ ")"
      ++ Print.body level b.isBlock (b.print ·)
  | ⟨.forRange var index range b, _, _⟩, level =>
    "for (" ++ var ++ (index.map (", " ++ ·)).getD "" ++ " in " ++ range.print level ++ ")"
      ++ Print.body level b.isBlock (b.print ·)
  | ⟨.switch subject cases, _, _⟩, level =>
    "switch (" ++ subject.print level ++ ") \x7b\n"
      ++ String.join (Case.printList cases (level + 1)) ++ pad level ++ "\x7d"
  | ⟨.returnValue value, _, _⟩, level =>
    "return" ++ ((Expr.printOption value level).map (" " ++ ·)).getD "" ++ ";"
  | ⟨.breakLoop, _, _⟩, _ => "break;"
  | ⟨.continueLoop, _, _⟩, _ => "continue;"
  | ⟨.tryCatch b handlers, _, _⟩, level =>
    "try " ++ b.print level ++ String.join (Handler.printList handlers level)
  | ⟨.throwValue none none, _, _⟩, _ => "throw;"
  | ⟨.throwValue (some message) none, _, _⟩, level => "throw " ++ message.print level ++ ";"
  | ⟨.throwValue (some message) (some b), _, _⟩, level =>
    "throw (" ++ message.print level ++ ") " ++ b.print level
  | ⟨.throwValue none (some b), _, _⟩, level => "throw " ++ b.print level
  | ⟨.assertion c, _, _⟩, level => "assert(" ++ c.print level ++ ");"
  | ⟨.asm raw, _, _⟩, _ => asm raw
  | ⟨.lock kind scope none, _, _⟩, _ => kind.keyword ++ " " ++ scope.display ++ ";"
  | ⟨.lock kind scope (some b), _, _⟩, level =>
    kind.keyword ++ " " ++ scope.display ++ " " ++ b.print level
  | ⟨.misplaced decl, _, _⟩, level => decl.print level

/-- Statements one by one. -/
def Stmt.printList : List Stmt → Nat → List String
  | [], _ => []
  | stmt :: more, level => stmt.print level :: Stmt.printList more level

/-- The first clause of a loop without its semicolon.  All variables but the first are written as
further names of one declaration. -/
def Stmt.printInit : List Stmt → Bool → Nat → String
  | [], _, _ => ""
  | ⟨.variable ⟨type, name, init, qualifiers, instantiation⟩, _, _⟩ :: more, declared, level =>
    (if declared then ", " ++ name ++ initializer (Expr.printOption init level)
      else Variable.print ⟨type, name, init, qualifiers, instantiation⟩ level)
      ++ Stmt.printInit more true level
  | ⟨.expression expr, _, _⟩ :: more, declared, level =>
    expr.print level ++ Stmt.printInit more declared level
  | stmt :: more, declared, level => stmt.print level ++ Stmt.printInit more declared level

/-- A block. -/
def Block.print : Block → Nat → String
  | ⟨statements, _⟩, level => braced level (Stmt.printList statements (level + 1))

/-- The lines of the cases of a switch. -/
def Case.printList : List Case → Nat → List String
  | [], _ => []
  | ⟨pattern, b, _⟩ :: more, level =>
    (pad level ++ "case (" ++ (Expr.printOption pattern level).getD "default" ++ ") "
      ++ b.print level ++ "\n") :: Case.printList more level

/-- The handlers of a `try`. -/
def Handler.printList : List Handler → Nat → List String
  | [], _ => []
  | ⟨none, _, b, _⟩ :: more, level =>
    (" catch " ++ b.print level) :: Handler.printList more level
  | ⟨some exception, binding, b, _⟩ :: more, level =>
    (" catch (" ++ exception.print level ++ (binding.map (" " ++ ·)).getD "" ++ ") "
      ++ b.print level) :: Handler.printList more level

/-- A variable without the semicolon behind it.  A pointer to a function has its parameter types
behind the name. -/
def Variable.print : Variable → Nat → String
  | ⟨⟨.pointer ⟨.function params result, _, _⟩ pointer, _, _⟩, name, init, qualifiers, none⟩, level =>
    variableQualifiers qualifiers ++ result.print level ++ "*" ++ pointerQualifiers pointer ++ " "
      ++ name ++ "(" ++ separated (Ty.printList params level) ++ ")"
      ++ initializer (Expr.printOption init level)
  | ⟨type, name, init, qualifiers, none⟩, level =>
    variableQualifiers qualifiers ++ type.print level ++ " " ++ name
      ++ initializer (Expr.printOption init level)
  | ⟨type, name, init, qualifiers, some args⟩, level =>
    variableQualifiers qualifiers ++ type.print level
      ++ (if args.isEmpty then "" else "(" ++ separated (Expr.printList args level) ++ ")")
      ++ "\x7b\x7d " ++ name ++ initializer (Expr.printOption init level)

/-- A declaration, from where it stands on its line. -/
def Decl.print : Decl → Nat → String
  | ⟨.importFile path newName, _, _⟩, _ =>
    "import " ++ quoted path ++ (newName.map (" as " ++ ·)).getD "" ++ ";"
  | ⟨.usingPath path, _, _⟩, _ => "using " ++ path.display ++ ";"
  | ⟨.namespaceDecl name members, _, _⟩, level =>
    "namespace " ++ name ++ " " ++ braced level (Decl.printList members (level + 1))
  | ⟨.classDecl name bases exclusions members isForward, _, _⟩, level =>
    "class " ++ name ++ inheritance bases exclusions
      ++ (if isForward then ";" else " " ++ braced level (Decl.printList members (level + 1)))
  | ⟨.objectDecl name bases members isForward, _, _⟩, level =>
    "object " ++ name ++ inheritance bases []
      ++ (if isForward then ";" else " " ++ braced level (Decl.printList members (level + 1)))
  | ⟨.structDecl name fields isForward, _, _⟩, level =>
    "struct " ++ name
      ++ (if isForward then ";"
        else " " ++ braced level ((Binding.printList fields (level + 1)).map (· ++ ";")))
  | ⟨.functionDecl name params result none, _, _⟩, level =>
    "def " ++ name ++ "(" ++ separated (Binding.printList params level) ++ ") -> "
      ++ result.print level ++ ";"
  | ⟨.functionDecl name params result (some b), _, _⟩, level =>
    "def " ++ name ++ "(" ++ separated (Binding.printList params level) ++ ") -> "
      ++ result.print level ++ " " ++ b.print level
  | ⟨.operatorDecl symbol params result b, _, _⟩, level =>
    "operator(" ++ separated (Binding.printList params level) ++ ")[" ++ symbol ++ "] -> "
      ++ result.print level ++ " " ++ b.print level
  | ⟨.variable var, _, _⟩, level => var.print level ++ ";"
  | ⟨.template params inner, _, _⟩, level =>
    "template <" ++ separated params ++ "> " ++ inner.print level
  | ⟨.enumDecl name members, _, _⟩, level =>
    "enum " ++ name ++ " " ++ braced level (EnumMember.printList members (level + 1))
  | ⟨.typeAlias name type, _, _⟩, level => "type " ++ name ++ " = " ++ type.print level ++ ";"
  | ⟨.data name layout, _, _⟩, _ => dataLayout layout ++ " as " ++ name ++ ";"
  | ⟨.asm raw, _, _⟩, _ => asm raw
  | ⟨.statement stmt, _, _⟩, level => stmt.print level

/-- Declarations one by one. -/
def Decl.printList : List Decl → Nat → List String
  | [], _ => []
  | decl :: more, level => decl.print level :: Decl.printList more level

/-- Typed names one by one. -/
def Binding.printList : List Binding → Nat → List String
  | [], _ => []
  | ⟨name, type, _⟩ :: more, level =>
    (type.print level ++ " " ++ name) :: Binding.printList more level

/-- The members of an enumeration, all but the last with a comma behind them. -/
def EnumMember.printList : List EnumMember → Nat → List String
  | [], _ => []
  | ⟨name, value, _⟩ :: more, level =>
    (name ++ initializer (Expr.printOption value level) ++ (if more.isEmpty then "" else ","))
      :: EnumMember.printList more level

end

/-! ## Programs -/

/-- Whether a declaration is printed over several lines and stands apart from its neighbours. -/
def Decl.hasBody : Decl → Bool
  | ⟨.namespaceDecl _ _, _, _⟩ | ⟨.enumDecl _ _, _, _⟩ | ⟨.operatorDecl _ _ _ _, _, _⟩ => true
  | ⟨.classDecl _ _ _ _ isForward, _, _⟩ | ⟨.objectDecl _ _ _ isForward, _, _⟩
  | ⟨.structDecl _ _ isForward, _, _⟩ => !isForward
  | ⟨.functionDecl _ _ _ body, _, _⟩ => body.isSome
  | ⟨.template _ inner, _, _⟩ => inner.hasBody
  | _ => false

/-- The lines of declarations behind one that has a body or not; a blank line stands on both sides of
a body. -/
def Print.declarations (behindBody : Bool) : List Decl → String
  | [] => ""
  | decl :: more =>
    (if decl.hasBody || behindBody then "\n" else "") ++ decl.print 0 ++ "\n"
      ++ Print.declarations decl.hasBody more

/-- A program as source text. -/
def Program.print (p : Program) : String :=
  match p.declarations with
  | [] => ""
  | decl :: more => decl.print 0 ++ "\n" ++ Print.declarations decl.hasBody more

end FluxFront
