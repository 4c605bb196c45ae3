import FluxFront.Tree.Edit

/-!
# Walking trees

All four sorts of nodes under one type, their children from left to right, and walks from the root
down.

* **Program**: `Node.children` lists the nodes directly below a node; blocks, cases and bindings are
  passed through.  A `Descent` chooses where a walk goes on from a node, and `Descent.walk` lists the
  nodes met, each before those below it.
* **Crux**: a child is smaller than its parent (`sizeOf_lt_of_mem_children`), which is why walks end
  and what inductions over trees rest on.
-/

namespace FluxFront

/-- A node of any sort. -/
inductive Node
  | declaration (decl : Decl)
  | statement (stmt : Stmt)
  | expression (expr : Expr)
  | type (type : Ty)

namespace Node

/-- The sort of a node. -/
def sort : Node → NodeSort
  | declaration _ => .declaration
  | statement _ => .statement
  | expression _ => .expression
  | type _ => .type

/-- The span of a node. -/
def span : Node → Span
  | declaration d => d.span
  | statement s => s.span
  | expression e => e.span
  | type t => t.span

/-- The identity of a node. -/
def id : Node → NodeId
  | declaration d => d.id
  | statement s => s.id
  | expression e => e.id
  | type t => t.id

/-- Whether a node stands for something that could not be read. -/
def isPlaceholder : Node → Bool
  | expression e => e.isPlaceholder
  | type t => t.isPlaceholder
  | _ => false

/-! ## Children -/

/-- The statements of a block. -/
def ofBlock (b : Block) : List Node := b.statements.map statement

/-- The types of typed names. -/
def ofBindings (bs : List Binding) : List Node := bs.map fun b => type b.type

/-- A variable: its type, the arguments of its instantiation, then its initial value. -/
def ofVariable (v : Variable) : List Node :=
  type v.type :: ((v.instantiation.getD []).map expression ++ v.initializer.toList.map expression)

/-- The nodes directly below a type. -/
def ofTy : Ty.Form → List Node
  | .pointer pointee _ => [type pointee]
  | .array element size => type element :: size.toList.map expression
  | .function params result => params.map type ++ [type result]
  | .applied base args => type base :: args.map type
  | .builtin _ | .named _ | .qualified _ | .data _ | .placeholder => []

/-- The nodes directly below an expression. -/
def ofExpr : Expr.Form → List Node
  | .unary _ operand _ => [expression operand]
  | .binary _ left right => [expression left, expression right]
  | .assign _ target value => [expression target, expression value]
  | .conditional c t e => [expression c, expression t, expression e]
  | .call callee args => expression callee :: args.map expression
  | .member object _ => [expression object]
  | .subscript object index => [expression object, expression index]
  | .cast target operand => [type target, expression operand]
  | .sizeOf t => [type t]
  | .typeOf inner | .group inner => [expression inner]
  | .opCall left _ right => [expression left, expression right]
  | .interpolated _ values => values.map expression
  | .array elements => elements.map expression
  | .dictionary entries => entries.flatMap fun e => [expression e.key, expression e.value]
  | .block statements => statements.map statement
  | .literal _ | .identifier _ | .placeholder => []

/-- The nodes directly below a statement. -/
def ofStmt : Stmt.Form → List Node
  | .expression e | .assertion e => [expression e]
  | .block body => ofBlock body
  | .variable var => ofVariable var
  | .ifElse c t e => expression c :: statement t :: e.toList.map statement
  | .whileLoop c body => [expression c, statement body]
  | .doWhile body c => [statement body, expression c]
  | .forLoop init c i body =>
    init.map statement ++ c.toList.map expression ++ i.toList.map expression ++ [statement body]
  | .forRange _ _ range body => [expression range, statement body]
  | .switch subject cases =>
    expression subject ::
      cases.flatMap fun c => c.pattern.toList.map expression ++ ofBlock c.body
  | .returnValue value => value.toList.map expression
  | .tryCatch body handlers =>
    ofBlock body ++ handlers.flatMap fun h => h.exception.toList.map type ++ ofBlock h.body
  | .throwValue message body => message.toList.map expression ++ body.toList.flatMap ofBlock
  | .lock _ _ body => body.toList.flatMap ofBlock
  | .misplaced decl => [declaration decl]
  | .breakLoop | .continueLoop | .asm _ => []

/-- The nodes directly below a declaration. -/
def ofDecl : Decl.Form → List Node
  | .namespaceDecl _ members | .classDecl _ _ _ members _ | .objectDecl _ _ members _ =>
    members.map declaration
  | .structDecl _ fields _ => ofBindings fields
  | .functionDecl _ params result body =>
    ofBindings params ++ type result :: body.toList.flatMap ofBlock
  | .operatorDecl _ params result body => ofBindings params ++ type result :: ofBlock body
  | .variable var => ofVariable var
  | .template _ inner => [declaration inner]
  | .enumDecl _ members => members.flatMap fun m => m.value.toList.map expression
  | .typeAlias _ t => [type t]
  | .statement stmt => [statement stmt]
  | .importFile _ _ | .usingPath _ | .data _ _ | .asm _ => []

/-- The nodes directly below a node, from left to right. -/
def children : Node → List Node
  | declaration d => ofDecl d.form
  | statement s => ofStmt s.form
  | expression e => ofExpr e.form
  | type t => ofTy t.form

/-! ## A child is smaller than its parent -/

theorem sizeOf_le_of_mem_block {c : Node} {b : Block} (h : c ∈ ofBlock b) :
    sizeOf c ≤ sizeOf b := by
  obtain ⟨statements, span⟩ := b
  grind [ofBlock, → List.sizeOf_lt_of_mem]

theorem sizeOf_le_of_mem_bindings {c : Node} {bs : List Binding} (h : c ∈ ofBindings bs) :
    sizeOf c ≤ sizeOf bs := by
  simp only [ofBindings, List.mem_map] at h
  obtain ⟨⟨name, type, span⟩, hb, rfl⟩ := h
  grind [→ List.sizeOf_lt_of_mem]

theorem sizeOf_le_of_mem_variable {c : Node} {v : Variable} (h : c ∈ ofVariable v) :
    sizeOf c ≤ sizeOf v := by
  obtain ⟨type, name, initializer, qualifiers, instantiation⟩ := v
  cases initializer <;> cases instantiation <;> grind [ofVariable, → List.sizeOf_lt_of_mem]

theorem sizeOf_le_of_mem_ty {c : Node} {form : Ty.Form} (h : c ∈ ofTy form) :
    sizeOf c ≤ sizeOf form := by
  cases form <;> simp only [ofTy, List.mem_cons, List.mem_append, List.mem_map, List.not_mem_nil,
    or_false, Option.mem_toList] at h <;> grind [→ List.sizeOf_lt_of_mem]

theorem sizeOf_le_of_mem_expr {c : Node} {form : Expr.Form} (h : c ∈ ofExpr form) :
    sizeOf c ≤ sizeOf form := by
  cases form
  case dictionary entries =>
    simp only [ofExpr, List.mem_flatMap] at h
    obtain ⟨⟨key, value⟩, he, hc⟩ := h
    grind [→ List.sizeOf_lt_of_mem]
  all_goals simp only [ofExpr, List.mem_cons, List.mem_map, List.not_mem_nil, or_false] at h
  all_goals grind [→ List.sizeOf_lt_of_mem]

theorem sizeOf_le_of_mem_stmt {c : Node} {form : Stmt.Form} (h : c ∈ ofStmt form) :
    sizeOf c ≤ sizeOf form := by
  cases form
  case switch subject cases =>
    simp only [ofStmt, List.mem_cons, List.mem_flatMap, List.mem_append, List.mem_map,
      Option.mem_toList] at h
    rcases h with rfl | ⟨⟨pattern, body, span⟩, hk, ⟨e, he, rfl⟩ | hb⟩
    · grind
    · grind [→ List.sizeOf_lt_of_mem]
    · grind [→ List.sizeOf_lt_of_mem, → sizeOf_le_of_mem_block]
  case tryCatch body handlers =>
    simp only [ofStmt, List.mem_append, List.mem_flatMap, List.mem_map, Option.mem_toList] at h
    rcases h with hb | ⟨⟨exception, binding, body, span⟩, hk, ⟨e, he, rfl⟩ | hb⟩
    · grind [→ sizeOf_le_of_mem_block]
    · grind [→ List.sizeOf_lt_of_mem]
    · grind [→ List.sizeOf_lt_of_mem, → sizeOf_le_of_mem_block]
  all_goals simp only [ofStmt, List.mem_cons, List.mem_append, List.mem_map, List.mem_flatMap,
    List.not_mem_nil, or_false, Option.mem_toList] at h
  all_goals grind [→ List.sizeOf_lt_of_mem, → sizeOf_le_of_mem_block, → sizeOf_le_of_mem_variable]

theorem sizeOf_le_of_mem_decl {c : Node} {form : Decl.Form} (h : c ∈ ofDecl form) :
    sizeOf c ≤ sizeOf form := by
  cases form
  case enumDecl name members =>
    simp only [ofDecl, List.mem_flatMap, List.mem_map, Option.mem_toList] at h
    obtain ⟨⟨member, value, span⟩, hm, e, he, rfl⟩ := h
    grind [→ List.sizeOf_lt_of_mem]
  all_goals simp only [ofDecl, List.mem_cons, List.mem_append, List.mem_map, List.mem_flatMap,
    List.not_mem_nil, or_false, Option.mem_toList] at h
  all_goals grind [→ List.sizeOf_lt_of_mem, → sizeOf_le_of_mem_block, → sizeOf_le_of_mem_variable,
    → sizeOf_le_of_mem_bindings]

/-- A child is smaller than its parent. -/
theorem sizeOf_lt_of_mem_children {c n : Node} (h : c ∈ n.children) : sizeOf c < sizeOf n := by
  cases n with
  | declaration d => obtain ⟨form, span, id⟩ := d; have := sizeOf_le_of_mem_decl h; grind
  | statement s => obtain ⟨form, span, id⟩ := s; have := sizeOf_le_of_mem_stmt h; grind
  | expression e => obtain ⟨form, span, id⟩ := e; have := sizeOf_le_of_mem_expr h; grind
  | type t => obtain ⟨form, span, id⟩ := t; have := sizeOf_le_of_mem_ty h; grind

end Node

/-! ## Walks -/

/-- Where a walk goes on from a node: to smaller nodes. -/
structure Descent where
  next : Node → List Node
  smaller : ∀ {c n : Node}, c ∈ next n → sizeOf c < sizeOf n

namespace Descent

/-- To all children. -/
def full : Descent := ⟨Node.children, Node.sizeOf_lt_of_mem_children⟩

/-- To the children of the nodes that are entered. -/
def entering (enters : Node → Bool) : Descent where
  next n := if enters n then n.children else []
  smaller {c n} h := by
    by_cases he : enters n = true
    · exact Node.sizeOf_lt_of_mem_children (by simpa [he] using h)
    · simp [he] at h

/-- The nodes met on a walk from a node, each together with the span of the node it was reached from,
before those it leads to. -/
def walkWithParents (d : Descent) (parent : Span) (n : Node) : List (Span × Node) :=
  (parent, n) :: (d.next n).attach.flatMap fun ⟨c, _⟩ => d.walkWithParents n.span c
termination_by sizeOf n
decreasing_by exact d.smaller ‹_›

/-- The nodes met on a walk from a node, each before those it leads to. -/
def walk (d : Descent) (n : Node) : List Node :=
  n :: (d.next n).attach.flatMap fun ⟨c, _⟩ => d.walk c
termination_by sizeOf n
decreasing_by exact d.smaller ‹_›

/-- A walk is the node and the walks from where it goes on. -/
theorem walk_eq (d : Descent) (n : Node) : d.walk n = n :: (d.next n).flatMap d.walk := by
  rw [walk]
  simp

/-- A walk with parents is the node and the walks from where it goes on. -/
theorem walkWithParents_eq (d : Descent) (parent : Span) (n : Node) :
    d.walkWithParents parent n = (parent, n) :: (d.next n).flatMap (d.walkWithParents n.span) := by
  rw [walkWithParents]
  simp

end Descent

/-- The nodes of a whole program on a walk from its declarations. -/
def Program.walk (p : Program) (d : Descent) : List Node :=
  p.declarations.flatMap fun decl => d.walk (.declaration decl)

/-- All nodes of a program, each before those below it. -/
def Program.nodes (p : Program) : List Node := p.walk .full

end FluxFront
