import FluxFront.Grammar.Program
import FluxFront.Proofs.Copies

/-!
# Properties that are composed

Many a property of trees is passed on from the children of a node to the node itself, except at the few
kinds of nodes that the property is about.  What such a property needs from the grammar is shown once,
for all of them.

* **Trees**: `Every P a` says that all nodes which a value consists of have the property `P`.  It is a
  class with one instance for each ordinary kind of node, so that a production which builds a node finds
  by itself what to show about it.
* **Parsers**: `Ensures P p` says that a parser gives such values from every state.  It is a class, too,
  with one instance for each way to put parsers together.
* **Crux**: a property need not be about all nodes.  It is composed (`Composed`) if ordinary nodes pass
  it on from their children, if it is handed down to all children, and if a copy of a type has it, too.
-/

set_option synthInstance.maxSize 1000

namespace FluxFront

/-! ## Nodes -/

/-- Whether a node is neither an operator with an operand that it could lose to another operator, nor
one of the constructs that can stand inside themselves. -/
def Node.isOrdinary : Node → Bool
  | expression ⟨.unary _ _ .before, _, _⟩ | expression ⟨.binary _ _ _, _, _⟩
  | expression ⟨.assign _ _ _, _, _⟩ | expression ⟨.conditional _ _ _, _, _⟩
  | expression ⟨.cast _ _, _, _⟩ | expression ⟨.opCall _ _ _, _, _⟩ | expression ⟨.group _, _, _⟩
  | expression ⟨.block _, _, _⟩ => false
  | statement ⟨.block _, _, _⟩ => false
  | declaration ⟨.namespaceDecl _ _, _, _⟩ | declaration ⟨.classDecl _ _ _ _ _, _, _⟩
  | declaration ⟨.objectDecl _ _ _ _, _, _⟩ | declaration ⟨.template _ _, _, _⟩ => false
  | _ => true

/-- A property that ordinary nodes have if their children do. -/
class Composed (P : Node → Prop) : Prop where
  children : ∀ {n c : Node}, P n → c ∈ n.children → P c
  ordinary : ∀ {n : Node}, n.isOrdinary = true → (∀ c ∈ n.children, P c) → P n
  copied : ∀ {t : Ty} (s : NodeId), P (.type t) → P (.type (t.edit Edit.freshCopy s).1)

/-! ## Values -/

/-- The nodes that a value consists of.  Most values have none. -/
class Bearing (α : Type) where
  nodes : α → List Node

instance (priority := low) (α : Type) : Bearing α := ⟨fun _ => []⟩

section

variable {α β : Type} [Bearing α] [Bearing β]

instance : Bearing (List α) := ⟨fun as => as.flatMap Bearing.nodes⟩
instance : Bearing (Option α) := ⟨fun a => a.toList.flatMap Bearing.nodes⟩
instance : Bearing (α × β) := ⟨fun x => Bearing.nodes x.1 ++ Bearing.nodes x.2⟩

end

instance : Bearing Ty := ⟨fun t => [.type t]⟩
instance : Bearing Expr := ⟨fun e => [.expression e]⟩
instance : Bearing Stmt := ⟨fun s => [.statement s]⟩
instance : Bearing Decl := ⟨fun d => [.declaration d]⟩
instance : Bearing Block := ⟨Node.ofBlock⟩
instance : Bearing Variable := ⟨Node.ofVariable⟩
instance : Bearing Entry := ⟨fun e => [.expression e.key, .expression e.value]⟩
instance : Bearing Case := ⟨fun c => c.pattern.toList.map .expression ++ Node.ofBlock c.body⟩
instance : Bearing Handler := ⟨fun h => h.exception.toList.map .type ++ Node.ofBlock h.body⟩
instance : Bearing Binding := ⟨fun b => [.type b.type]⟩
instance : Bearing EnumMember := ⟨fun m => m.value.toList.map .expression⟩

/-- Values without nodes. -/
class Plain (α : Type) [Bearing α] : Prop where
  nodes_eq : ∀ a : α, Bearing.nodes a = []

instance (priority := low) (α : Type) : @Plain α ⟨fun _ => []⟩ := @Plain.mk α ⟨fun _ => []⟩ fun _ => rfl

section

variable {α β : Type} [Bearing α] [Bearing β] [Plain α] [Plain β]

instance : Plain (List α) := ⟨fun _ => List.flatMap_eq_nil_iff.2 fun a _ => Plain.nodes_eq a⟩
instance : Plain (Option α) := ⟨fun _ => List.flatMap_eq_nil_iff.2 fun a _ => Plain.nodes_eq a⟩
instance : Plain (α × β) := ⟨fun x => List.append_eq_nil_iff.2 ⟨Plain.nodes_eq x.1, Plain.nodes_eq x.2⟩⟩

end

/-- In a value all nodes have a property. -/
class Every (P : Node → Prop) {α : Type} [Bearing α] (a : α) : Prop where
  nodes : ∀ n ∈ Bearing.nodes a, P n

namespace Every

variable {P : Node → Prop} {α β : Type} [Bearing α] [Bearing β]

theorem mono {Q : Node → Prop} {a : α} (h : Every Q a) (hP : ∀ n, Q n → P n) : Every P a :=
  ⟨fun n hn => hP n (h.nodes n hn)⟩

/-- A value that consists of the same nodes as another one. -/
theorem of {a : α} (b : β) [h : Every P b] (heq : Bearing.nodes a = Bearing.nodes b) : Every P a :=
  ⟨by rw [heq]; exact h.nodes⟩

instance (priority := low) [Plain α] (a : α) : Every P a := ⟨by simp [Plain.nodes_eq]⟩

instance : Every P ([] : List α) := ⟨by simp [Bearing.nodes]⟩

theorem list_iff {as : List α} : Every P as ↔ ∀ a ∈ as, Every P a := by
  constructor
  · exact fun h a ha => ⟨fun n hn => h.nodes n (List.mem_flatMap_of_mem ha hn)⟩
  · intro h
    refine ⟨fun n hn => ?_⟩
    obtain ⟨a, ha, hn⟩ := List.mem_flatMap.1 hn
    exact (h a ha).nodes n hn

instance {a : α} {as : List α} [ha : Every P a] [has : Every P as] : Every P (a :: as) :=
  list_iff.2 (List.forall_mem_cons.2 ⟨ha, list_iff.1 has⟩)

instance {as bs : List α} [has : Every P as] [hbs : Every P bs] : Every P (as ++ bs) :=
  list_iff.2 (List.forall_mem_append.2 ⟨list_iff.1 has, list_iff.1 hbs⟩)

instance {ass : List (List α)} [h : Every P ass] : Every P ass.flatten :=
  list_iff.2 fun _ ha => by
    obtain ⟨as, has, ha⟩ := List.mem_flatten.1 ha
    exact list_iff.1 (list_iff.1 h as has) _ ha

instance : Every P (none : Option α) := ⟨by simp [Bearing.nodes]⟩

theorem some_iff {a : α} : Every P (some a) ↔ Every P a :=
  ⟨fun h => ⟨fun n hn => h.nodes n (by simpa [Bearing.nodes] using hn)⟩,
    fun h => ⟨fun n hn => h.nodes n (by simpa [Bearing.nodes] using hn)⟩⟩

instance {a : α} [h : Every P a] : Every P (some a) := some_iff.2 h

theorem prod_iff {x : α × β} : Every P x ↔ Every P x.1 ∧ Every P x.2 :=
  ⟨fun h => ⟨⟨fun n hn => h.nodes n (List.mem_append_left _ hn)⟩,
      ⟨fun n hn => h.nodes n (List.mem_append_right _ hn)⟩⟩,
    fun h => ⟨List.forall_mem_append.2 ⟨h.1.nodes, h.2.nodes⟩⟩⟩

instance {a : α} {b : β} [ha : Every P a] [hb : Every P b] : Every P (a, b) := prod_iff.2 ⟨ha, hb⟩

instance {x : α × β} [h : Every P x] : Every P x.1 := (prod_iff.1 h).1

instance {c : Prop} [Decidable c] {a b : α} [ha : Every P a] [hb : Every P b] :
    Every P (if c then a else b) := by
  split
  · exact ha
  · exact hb

end Every

/-! ## Trees -/

namespace Every

variable {P : Node → Prop} [Composed P] {β : Type} [Bearing β]

/-! ### Types -/

section

variable (span : Span) (id : NodeId)

theorem type {form : Ty.Form} (b : β) [h : Every P b] (heq : Node.ofTy form = Bearing.nodes b) :
    Every P (Ty.mk form span id) :=
  ⟨List.forall_mem_singleton.2 (Composed.ordinary rfl (by
    show ∀ c ∈ Node.ofTy form, P c
    rw [heq]
    exact h.nodes))⟩

instance (name : Builtin) : Every P (Ty.mk (.builtin name) span id) := .type span id () rfl
instance (name : String) : Every P (Ty.mk (.named name) span id) := .type span id () rfl
instance (name : QualifiedName) : Every P (Ty.mk (.qualified name) span id) := .type span id () rfl
instance (layout : DataLayout) : Every P (Ty.mk (.data layout) span id) := .type span id () rfl
instance : Every P (Ty.mk .placeholder span id) := .type span id () rfl

instance {c : Prop} [Decidable c] {f g : Ty.Form} [hf : Every P (Ty.mk f span id)]
    [hg : Every P (Ty.mk g span id)] : Every P (Ty.mk (if c then f else g) span id) := by
  split
  · exact hf
  · exact hg

variable {t : Ty} [Every P t] {ts : List Ty} [Every P ts] {size : Option Expr} [Every P size]

instance (q : Qualifiers) : Every P (Ty.mk (.pointer t q) span id) := .type span id t rfl

instance : Every P (Ty.mk (.array t size) span id) :=
  .type span id (t, size) (by simp [Bearing.nodes, Node.ofTy, List.map_eq_flatMap])

instance : Every P (Ty.mk (.function ts t) span id) :=
  .type span id (ts, t) (by simp [Bearing.nodes, Node.ofTy, List.map_eq_flatMap])

instance : Every P (Ty.mk (.applied t ts) span id) :=
  .type span id (t, ts) (by simp [Bearing.nodes, Node.ofTy, List.map_eq_flatMap])

end

/-! ### Statements -/

section

variable {e : Expr} [Every P e] {t? : Option Ty} [Every P t?] {s : Stmt} [Every P s]
  {e? c? : Option Expr} [Every P e?] [Every P c?] {s? : Option Stmt} [Every P s?] {ss : List Stmt}
  [Every P ss] {b : Block} [Every P b] {b? : Option Block} [Every P b?] {d : Decl} [Every P d]
  {v : Variable} [Every P v] (span : Span) (id : NodeId)

theorem statement {form : Stmt.Form} (b : β) [h : Every P b] (heq : Node.ofStmt form = Bearing.nodes b)
    (hordinary : (Node.statement (Stmt.mk form span id)).isOrdinary = true) :
    Every P (Stmt.mk form span id) :=
  ⟨List.forall_mem_singleton.2 (Composed.ordinary hordinary (by
    show ∀ c ∈ Node.ofStmt form, P c
    rw [heq]
    exact h.nodes))⟩

instance : Every P (Block.mk ss span) :=
  .of ss (by simp [Bearing.nodes, Node.ofBlock, List.map_eq_flatMap])

instance {b : Block} [h : Every P b] : Every P b.statements :=
  ⟨fun n hn => h.nodes n (by simpa [Bearing.nodes, Node.ofBlock, List.map_eq_flatMap] using hn)⟩

instance : Every P (Stmt.mk .breakLoop span id) := .statement span id () rfl rfl
instance : Every P (Stmt.mk .continueLoop span id) := .statement span id () rfl rfl
instance (raw : String) : Every P (Stmt.mk (.asm raw) span id) := .statement span id () rfl rfl
instance : Every P (Stmt.mk (.expression e) span id) := .statement span id e rfl rfl
instance : Every P (Stmt.mk (.variable v) span id) := .statement span id v rfl rfl

instance : Every P (Stmt.mk (.ifElse e s s?) span id) :=
  .statement span id (e, s, s?) (by simp [Bearing.nodes, Node.ofStmt, List.map_eq_flatMap]) rfl

instance : Every P (Stmt.mk (.whileLoop e s) span id) := .statement span id (e, s) rfl rfl

instance : Every P (Stmt.mk (.doWhile s e) span id) := .statement span id (s, e) rfl rfl

instance : Every P (Stmt.mk (.forLoop ss e? c? s) span id) :=
  .statement span id (ss, e?, c?, s) (by simp [Bearing.nodes, Node.ofStmt, List.map_eq_flatMap]) rfl

instance (var : String) (index : Option String) :
    Every P (Stmt.mk (.forRange var index e s) span id) := .statement span id (e, s) rfl rfl

instance : Every P (Case.mk e? b span) := .of (e?, b) (by simp [Bearing.nodes, List.map_eq_flatMap])

instance {cases : List Case} [Every P cases] : Every P (Stmt.mk (.switch e cases) span id) :=
  .statement span id (e, cases) rfl rfl

instance : Every P (Stmt.mk (.returnValue e?) span id) :=
  .statement span id e? (by simp [Bearing.nodes, Node.ofStmt, List.map_eq_flatMap]) rfl

instance (binding : Option String) : Every P (Handler.mk t? binding b span) :=
  .of (t?, b) (by simp [Bearing.nodes, List.map_eq_flatMap])

instance {handlers : List Handler} [Every P handlers] : Every P (Stmt.mk (.tryCatch b handlers) span id) :=
  .statement span id (b, handlers) rfl rfl

instance : Every P (Stmt.mk (.throwValue e? b?) span id) :=
  .statement span id (e?, b?) (by simp [Bearing.nodes, Node.ofStmt, List.map_eq_flatMap]) rfl

instance : Every P (Stmt.mk (.assertion e) span id) := .statement span id e rfl rfl

instance (kind : LockKind) (scope : QualifiedName) : Every P (Stmt.mk (.lock kind scope b?) span id) :=
  .statement span id b? rfl rfl

instance : Every P (Stmt.mk (.misplaced d) span id) := .statement span id d rfl rfl

end

/-! ### Declarations -/

section

variable {t : Ty} [Every P t] {s : Stmt} [Every P s] {e? : Option Expr} [Every P e?] {b : Block}
  [Every P b] {b? : Option Block} [Every P b?] {bs : List Binding} [Every P bs] {v : Variable} [Every P v]
  (span : Span) (id : NodeId)

instance {c : Prop} [Decidable c] {f g : Decl.Form} [hf : Every P (Decl.mk f span id)]
    [hg : Every P (Decl.mk g span id)] : Every P (Decl.mk (if c then f else g) span id) := by
  split
  · exact hf
  · exact hg

theorem declaration {form : Decl.Form} (b : β) [h : Every P b]
    (heq : Node.ofDecl form = Bearing.nodes b)
    (hordinary : (Node.declaration (Decl.mk form span id)).isOrdinary = true) :
    Every P (Decl.mk form span id) :=
  ⟨List.forall_mem_singleton.2 (Composed.ordinary hordinary (by
    show ∀ c ∈ Node.ofDecl form, P c
    rw [heq]
    exact h.nodes))⟩

instance (path : String) (newName : Option String) : Every P (Decl.mk (.importFile path newName) span id) :=
  .declaration span id () rfl rfl

instance (path : QualifiedName) : Every P (Decl.mk (.usingPath path) span id) :=
  .declaration span id () rfl rfl

instance (name : String) (layout : DataLayout) : Every P (Decl.mk (.data name layout) span id) :=
  .declaration span id () rfl rfl

instance (raw : String) : Every P (Decl.mk (.asm raw) span id) := .declaration span id () rfl rfl

instance (name : String) : Every P (Binding.mk name t span) := .of t rfl

instance (name : String) (isForward : Bool) : Every P (Decl.mk (.structDecl name bs isForward) span id) :=
  .declaration span id bs
    (by simp [Bearing.nodes, Node.ofDecl, Node.ofBindings, List.map_eq_flatMap]) rfl

instance (name : String) : Every P (Decl.mk (.functionDecl name bs t b?) span id) :=
  .declaration span id (bs, t, b?)
    (by simp [Bearing.nodes, Node.ofDecl, Node.ofBindings, List.map_eq_flatMap]) rfl

instance (symbol : String) : Every P (Decl.mk (.operatorDecl symbol bs t b) span id) :=
  .declaration span id (bs, t, b)
    (by simp [Bearing.nodes, Node.ofDecl, Node.ofBindings, List.map_eq_flatMap]) rfl

instance (name : String) (qualifiers : Qualifiers) {args : Option (List Expr)} [Every P args] :
    Every P (Variable.mk t name e? qualifiers args) :=
  .of (t, args, e?) (by cases args <;> simp [Bearing.nodes, Node.ofVariable, List.map_eq_flatMap])

instance : Every P (Decl.mk (.variable v) span id) := .declaration span id v rfl rfl

instance (name : String) : Every P (EnumMember.mk name e? span) :=
  .of e? (by simp [Bearing.nodes, List.map_eq_flatMap])

instance (name : String) {ms : List EnumMember} [Every P ms] :
    Every P (Decl.mk (.enumDecl name ms) span id) := .declaration span id ms rfl rfl

instance (name : String) : Every P (Decl.mk (.typeAlias name t) span id) :=
  .declaration span id t rfl rfl

instance : Every P (Decl.mk (.statement s) span id) := .declaration span id s rfl rfl

end

/-! ### Expressions -/

section

variable {a b : Expr} [Every P a] [Every P b] {t : Ty} [Every P t] {es : List Expr} [Every P es]
  (span : Span) (id : NodeId)

theorem expression {form : Expr.Form} (b : β) [h : Every P b] (heq : Node.ofExpr form = Bearing.nodes b)
    (hordinary : (Node.expression (Expr.mk form span id)).isOrdinary = true) :
    Every P (Expr.mk form span id) :=
  ⟨List.forall_mem_singleton.2 (Composed.ordinary hordinary (by
    show ∀ c ∈ Node.ofExpr form, P c
    rw [heq]
    exact h.nodes))⟩

instance (value : Literal) : Every P (Expr.mk (.literal value) span id) := .expression span id () rfl rfl
instance (name : String) : Every P (Expr.mk (.identifier name) span id) := .expression span id () rfl rfl
instance : Every P (Expr.mk .placeholder span id) := .expression span id () rfl rfl

instance (op : UnaryOp) : Every P (Expr.mk (.unary op a .after) span id) := .expression span id a rfl rfl

instance : Every P (Expr.mk (.call a es) span id) :=
  .expression span id (a, es) (by simp [Bearing.nodes, Node.ofExpr, List.map_eq_flatMap]) rfl

instance (name : String) : Every P (Expr.mk (.member a name) span id) := .expression span id a rfl rfl
instance : Every P (Expr.mk (.subscript a b) span id) := .expression span id (a, b) rfl rfl
instance : Every P (Expr.mk (.sizeOf t) span id) := .expression span id t rfl rfl
instance : Every P (Expr.mk (.typeOf a) span id) := .expression span id a rfl rfl

instance (parts : List String) : Every P (Expr.mk (.interpolated parts es) span id) :=
  .expression span id es (by simp [Bearing.nodes, Node.ofExpr, List.map_eq_flatMap]) rfl

instance : Every P (Expr.mk (.array es) span id) :=
  .expression span id es (by simp [Bearing.nodes, Node.ofExpr, List.map_eq_flatMap]) rfl

instance : Every P (Entry.mk a b) := .of (a, b) rfl

instance {entries : List Entry} [Every P entries] : Every P (Expr.mk (.dictionary entries) span id) :=
  .expression span id entries rfl rfl

end

/-! ### Parts and copies -/

/-- What a pointer points to. -/
theorem pointee {t pointee : Ty} {q : Qualifiers} (h : Every P t) (hform : t.form = .pointer pointee q) :
    Every P pointee :=
  ⟨List.forall_mem_singleton.2 (Composed.children (h.nodes (.type t) List.mem_cons_self) (by
    show Node.type pointee ∈ Node.ofTy t.form
    rw [hform]
    exact List.mem_cons_self))⟩

/-- What stands in parentheses. -/
theorem grouped {e e' : Expr} (h : Every P e) (hform : e.form = .group e') : Every P e' :=
  ⟨List.forall_mem_singleton.2 (Composed.children (h.nodes (.expression e) List.mem_cons_self) (by
    show Node.expression e' ∈ Node.ofExpr e.form
    rw [hform]
    exact List.mem_cons_self))⟩

/-- A variable without its declaration. -/
theorem declared {d : Decl} {v : Variable} (h : Every P d) (hform : d.form = .variable v) : Every P v :=
  ⟨fun c hc => Composed.children (h.nodes (.declaration d) List.mem_cons_self) (by
    show c ∈ Node.ofDecl d.form
    rw [hform]
    exact hc)⟩

/-- A copy has the property of its original. -/
theorem freshCopy {t : Ty} (h : Every P t) (s : NodeId) : Every P (t.edit Edit.freshCopy s).1 :=
  ⟨List.forall_mem_singleton.2 (Composed.copied s (h.nodes (.type t) List.mem_cons_self))⟩

end Every

end FluxFront
