import FluxFront.Dump.Value
import FluxFront.Tree.Node

/-!
# Dumps of syntax trees

Every node is a record of its form, its span and its identity; a form is named for its case.  What
follows from the rest of a node is written too: whether a function is a prototype, and whether a case
is the default.
-/

namespace FluxFront

/-- The name of a unary operator. -/
def UnaryOp.name : UnaryOp → String
  | not => "Not"
  | negate => "Negate"
  | plus => "Plus"
  | bitNot => "BitNot"
  | increment => "Increment"
  | decrement => "Decrement"
  | deref => "Deref"
  | addressOf => "AddressOf"

/-- The name of a binary operator. -/
def BinaryOp.name : BinaryOp → String
  | or => "Or"
  | and => "And"
  | bitOr => "BitOr"
  | bitXor => "BitXor"
  | bitAnd => "BitAnd"
  | equal => "Equal"
  | notEqual => "NotEqual"
  | is => "Is"
  | less => "Less"
  | lessEqual => "LessEqual"
  | greater => "Greater"
  | greaterEqual => "GreaterEqual"
  | shl => "Shl"
  | shr => "Shr"
  | add => "Add"
  | subtract => "Subtract"
  | multiply => "Multiply"
  | divide => "Divide"
  | modulo => "Modulo"
  | power => "Power"

/-- The name of an assignment operator. -/
def AssignOp.name : AssignOp → String
  | assign => "Assign"
  | add => "Add"
  | subtract => "Subtract"
  | multiply => "Multiply"
  | divide => "Divide"
  | modulo => "Modulo"
  | bitAnd => "BitAnd"
  | bitOr => "BitOr"
  | bitXor => "BitXor"
  | shl => "Shl"
  | shr => "Shr"
  | power => "Power"

/-- The name of a builtin type. -/
def Builtin.name : Builtin → String
  | void => "Void"
  | auto => "Auto"
  | anyClass => "Class"
  | anyObject => "Object"
  | anyStruct => "Struct"

/-- The name of a locking statement. -/
def LockKind.name : LockKind → String
  | lock => "Lock"
  | preLock => "PreLock"
  | postLock => "PostLock"

/-- The dump of a dotted name. -/
def QualifiedName.dump (n : QualifiedName) : Dump := .record [("segments", .texts n.segments)]

/-- The dump of a literal. -/
def Literal.dump : Literal → Dump
  | .int value => .variant "Int" (.number value.toNat)
  | .float value => .variant "Float" (.float value)
  | .bool value => .variant "Bool" (.bool value)
  | .char value => .variant "Char" (.text value.toString)
  | .string value => .variant "String" (.text value)
  | .bits digits => .variant "BitData" (.text digits)

/-- The record of a node. -/
def Dump.node (form : Dump) (span : Span) (id : NodeId) : Dump :=
  .record [("node", form), ("span", .span span), ("id", .number id)]

/-- The record of a variable, from the dumps of its parts. -/
def Dump.variable (type initializer instantiation : Dump) (name : String)
    (qualifiers : Qualifiers) : Dump :=
  .record [("var_type", type), ("name", .text name), ("initializer", initializer),
    ("is_const", .bool qualifiers.isConst), ("is_volatile", .bool qualifiers.isVolatile),
    ("instantiation", instantiation)]

mutual

/-- The dump of a type. -/
def Ty.dump : Ty → Dump
  | ⟨form, span, id⟩ => .node form.dump span id

/-- The dump of the form of a type. -/
def Ty.Form.dump : Ty.Form → Dump
  | .builtin name => .variant "Builtin" (.text name.name)
  | .named name => .variant "Named" (.text name)
  | .qualified name => .variant "Qualified" name.dump
  | .pointer pointee qualifiers =>
    .variant "Pointer" (.record [("pointee", pointee.dump),
      ("is_const", .bool qualifiers.isConst), ("is_volatile", .bool qualifiers.isVolatile)])
  | .array element size =>
    .variant "Array" (.record [("element", element.dump), ("size", Expr.dumpOption size)])
  | .function params result =>
    .variant "Function"
      (.record [("param_types", .list (Ty.dumpList params)), ("return_type", result.dump)])
  | .data layout =>
    .variant "Data" (.record [("bit_width", .number layout.bitWidth.toNat),
      ("is_signed", .bool layout.isSigned)])
  | .applied base args =>
    .variant "TemplateInstantiation"
      (.record [("base", base.dump), ("args", .list (Ty.dumpList args))])
  | .placeholder => .text "Placeholder"

/-- The dumps of types. -/
def Ty.dumpList : List Ty → List Dump
  | [] => []
  | type :: more => type.dump :: Ty.dumpList more

/-- The dump of a type that may be absent. -/
def Ty.dumpOption : Option Ty → Dump
  | none => .null
  | some type => type.dump

/-- The dump of an expression. -/
def Expr.dump : Expr → Dump
  | ⟨form, span, id⟩ => .node form.dump span id

/-- The dump of the form of an expression. -/
def Expr.Form.dump : Expr.Form → Dump
  | .literal value => .variant "Literal" value.dump
  | .identifier name => .variant "Identifier" (.text name)
  | .unary op operand placement =>
    .variant "Unary" (.record [("op", .text op.name), ("operand", operand.dump),
      ("prefix", .bool (placement == .before))])
  | .binary op left right =>
    .variant "Binary"
      (.record [("op", .text op.name), ("left", left.dump), ("right", right.dump)])
  | .assign op target value =>
    .variant "Assign"
      (.record [("op", .text op.name), ("target", target.dump), ("value", value.dump)])
  | .conditional condition thenValue elseValue =>
    .variant "Ternary" (.record [("condition", condition.dump), ("then_expr", thenValue.dump),
      ("else_expr", elseValue.dump)])
  | .call callee args =>
    .variant "Call" (.record [("callee", callee.dump), ("args", .list (Expr.dumpList args))])
  | .member object name =>
    .variant "Member" (.record [("object", object.dump), ("member", .text name)])
  | .subscript object index =>
    .variant "Subscript" (.record [("object", object.dump), ("index", index.dump)])
  | .cast target operand =>
    .variant "Cast" (.record [("target_type", target.dump), ("operand", operand.dump)])
  | .sizeOf type => .variant "SizeOf" type.dump
  | .typeOf inner => .variant "TypeOf" inner.dump
  | .opCall left operator right =>
    .variant "Op" (.record [("left", left.dump), ("operator_name", .text operator),
      ("right", right.dump)])
  | .interpolated parts values =>
    .variant "InterpolatedString" (.record [("literal_parts", .texts parts),
      ("expr_parts", .list (Expr.dumpList values))])
  | .array elements => .variant "Array" (.list (Expr.dumpList elements))
  | .dictionary entries => .variant "Dictionary" (.list (Entry.dumpList entries))
  | .group inner => .variant "Group" inner.dump
  | .block statements => .variant "AnonymousBlock" (.list (Stmt.dumpList statements))
  | .placeholder => .text "Placeholder"

/-- The dumps of expressions. -/
def Expr.dumpList : List Expr → List Dump
  | [] => []
  | expr :: more => expr.dump :: Expr.dumpList more

/-- The dump of an expression that may be absent. -/
def Expr.dumpOption : Option Expr → Dump
  | none => .null
  | some expr => expr.dump

/-- The dump of the arguments of an instantiation that may be absent. -/
def Expr.dumpArgs : Option (List Expr) → Dump
  | none => .null
  | some args => .record [("args", .list (Expr.dumpList args))]

/-- The dumps of dictionary entries. -/
def Entry.dumpList : List Entry → List Dump
  | [] => []
  | ⟨key, value⟩ :: more =>
    .record [("key", key.dump), ("value", value.dump)] :: Entry.dumpList more

/-- The dump of a statement. -/
def Stmt.dump : Stmt → Dump
  | ⟨form, span, id⟩ => .node form.dump span id

/-- The dump of the form of a statement. -/
def Stmt.Form.dump : Stmt.Form → Dump
  | .expression expr => .variant "Expression" expr.dump
  | .block body => .variant "Block" body.dump
  | .variable var => .variant "VarDecl" var.dump
  | .ifElse condition thenBranch elseBranch =>
    .variant "If" (.record [("condition", condition.dump), ("then_branch", thenBranch.dump),
      ("else_branch", Stmt.dumpOption elseBranch)])
  | .whileLoop condition body =>
    .variant "While" (.record [("condition", condition.dump), ("body", body.dump)])
  | .doWhile body condition =>
    .variant "DoWhile" (.record [("body", body.dump), ("condition", condition.dump)])
  | .forLoop init condition increment body =>
    .variant "For" (.record [("init", .list (Stmt.dumpList init)),
      ("condition", Expr.dumpOption condition), ("increment", Expr.dumpOption increment),
      ("body", body.dump)])
  | .forRange var index range body =>
    .variant "ForRange" (.record [("variable", .text var), ("index_variable", .ofOption .text index),
      ("range", range.dump), ("body", body.dump)])
  | .switch subject cases =>
    .variant "Switch" (.record [("subject", subject.dump), ("cases", .list (Case.dumpList cases))])
  | .returnValue value => .variant "Return" (Expr.dumpOption value)
  | .breakLoop => .text "Break"
  | .continueLoop => .text "Continue"
  | .tryCatch body handlers =>
    .variant "Try" (.record [("body", body.dump), ("catches", .list (Handler.dumpList handlers))])
  | .throwValue message body =>
    .variant "Throw" (.record [("message", Expr.dumpOption message),
      ("body", Block.dumpOption body)])
  | .assertion condition => .variant "Assert" condition.dump
  | .asm raw => .variant "Asm" (.text raw)
  | .lock kind scope body =>
    .variant "Lock" (.record [("kind", .text kind.name), ("scope_path", scope.dump),
      ("body", Block.dumpOption body)])
  | .misplaced decl => .variant "Misplaced" decl.dump

/-- The dumps of statements. -/
def Stmt.dumpList : List Stmt → List Dump
  | [] => []
  | stmt :: more => stmt.dump :: Stmt.dumpList more

/-- The dump of a statement that may be absent. -/
def Stmt.dumpOption : Option Stmt → Dump
  | none => .null
  | some stmt => stmt.dump

/-- The dump of a block. -/
def Block.dump : Block → Dump
  | ⟨statements, span⟩ =>
    .record [("statements", .list (Stmt.dumpList statements)), ("span", .span span)]

/-- The dump of a block that may be absent. -/
def Block.dumpOption : Option Block → Dump
  | none => .null
  | some body => body.dump

/-- The dumps of cases. -/
def Case.dumpList : List Case → List Dump
  | [] => []
  | ⟨pattern, body, span⟩ :: more =>
    .record [("pattern", Expr.dumpOption pattern), ("body", body.dump),
      ("is_default", .bool pattern.isNone), ("span", .span span)] :: Case.dumpList more

/-- The dumps of handlers. -/
def Handler.dumpList : List Handler → List Dump
  | [] => []
  | ⟨exception, binding, body, span⟩ :: more =>
    .record [("exception_type", Ty.dumpOption exception), ("binding", .ofOption .text binding),
      ("handler", body.dump), ("span", .span span)] :: Handler.dumpList more

/-- The dump of a variable. -/
def Variable.dump : Variable → Dump
  | ⟨type, name, initializer, qualifiers, instantiation⟩ =>
    .variable type.dump (Expr.dumpOption initializer) (Expr.dumpArgs instantiation) name qualifiers

/-- The dump of a declaration. -/
def Decl.dump : Decl → Dump
  | ⟨form, span, id⟩ => .node form.dump span id

/-- The dump of the form of a declaration. -/
def Decl.Form.dump : Decl.Form → Dump
  | .importFile path newName =>
    .variant "Import" (.record [("path", .text path), ("alias", .ofOption .text newName)])
  | .usingPath path => .variant "Using" path.dump
  | .namespaceDecl name members =>
    .variant "Namespace"
      (.record [("name", .text name), ("members", .list (Decl.dumpList members))])
  | .classDecl name bases exclusions members isForward =>
    .variant "Class" (.record [("name", .text name),
      ("base_list", .ofList QualifiedName.dump bases),
      ("exclusion_list", .ofList QualifiedName.dump exclusions),
      ("members", .list (Decl.dumpList members)), ("is_forward", .bool isForward)])
  | .objectDecl name bases members isForward =>
    .variant "Object" (.record [("name", .text name),
      ("base_list", .ofList QualifiedName.dump bases),
      ("members", .list (Decl.dumpList members)), ("is_forward", .bool isForward)])
  | .structDecl name fields isForward =>
    .variant "Struct" (.record [("name", .text name),
      ("fields", .list (Binding.dumpFields fields)), ("is_forward", .bool isForward)])
  | .functionDecl name params result body =>
    .variant "Function" (.record [("name", .text name),
      ("params", .list (Binding.dumpParams params)), ("return_type", result.dump),
      ("body", Block.dumpOption body), ("is_prototype", .bool body.isNone)])
  | .operatorDecl symbol params result body =>
    .variant "Operator" (.record [("symbol", .text symbol),
      ("params", .list (Binding.dumpParams params)), ("return_type", result.dump),
      ("body", body.dump)])
  | .variable var => .variant "Variable" var.dump
  | .template params inner =>
    .variant "Template" (.record [("type_params", .texts params), ("inner", inner.dump)])
  | .enumDecl name members =>
    .variant "Enum" (.record [("name", .text name),
      ("members", .list (EnumMember.dumpList members))])
  | .typeAlias name type =>
    .variant "TypeAlias" (.record [("name", .text name), ("underlying", type.dump)])
  | .data name layout =>
    .variant "Data" (.record [("name", .text name), ("bit_width", .number layout.bitWidth.toNat),
      ("is_signed", .bool layout.isSigned)])
  | .asm raw => .variant "Asm" (.text raw)
  | .statement stmt => .variant "Statement" stmt.dump

/-- The dumps of declarations. -/
def Decl.dumpList : List Decl → List Dump
  | [] => []
  | decl :: more => decl.dump :: Decl.dumpList more

/-- The dumps of the fields of a struct. -/
def Binding.dumpFields : List Binding → List Dump
  | [] => []
  | ⟨name, type, span⟩ :: more =>
    .record [("field_type", type.dump), ("name", .text name), ("span", .span span)]
      :: Binding.dumpFields more

/-- The dumps of the parameters of a function. -/
def Binding.dumpParams : List Binding → List Dump
  | [] => []
  | ⟨name, type, span⟩ :: more =>
    .record [("name", .text name), ("param_type", type.dump), ("span", .span span)]
      :: Binding.dumpParams more

/-- The dumps of the members of an enumeration. -/
def EnumMember.dumpList : List EnumMember → List Dump
  | [] => []
  | ⟨name, value, span⟩ :: more =>
    .record [("name", .text name), ("value", Expr.dumpOption value), ("span", .span span)]
      :: EnumMember.dumpList more

end

/-- The name of the case that a form is dumped as. -/
def Dump.caseName : Dump → String
  | .text name => name
  | .record ((name, _) :: _) => name
  | _ => ""

/-- The name of the form of a node. -/
def Node.caseName : Node → String
  | .declaration d => d.form.dump.caseName
  | .statement s => s.form.dump.caseName
  | .expression e => e.form.dump.caseName
  | .type t => t.form.dump.caseName

/-- The dump of a program. -/
def Program.dump (p : Program) : Dump :=
  .record [("declarations", .list (Decl.dumpList p.declarations)), ("span", .span p.span)]

end FluxFront
