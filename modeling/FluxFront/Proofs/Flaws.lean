import FluxFront.Diagnostic.Kind
import FluxFront.Proofs.Copies
import FluxFront.Tree.Shape

/-!
# Flaws of a tree

What can be told from a finished tree about the text it was read from, without looking at the text:
where something is missing, and which constructs stand where they may not stand.

* **Names**: `Node.names` lists the names a node holds itself.  Each of them was read from a token or
  stands in for one; a stand-in is empty.
* **Enclosure**: whether a jump is allowed depends on the loops and switches around it, counted up to
  the nearest function, operator or block inside an expression.  `Node.enclosed` is the walk that
  hands this down.
* **Marks**: `Node.trace` collects what is wrong from a node down.  It is given by the marks of the
  node and the traces of its children (`Node.trace_eq`), and a copy has the trace of its original
  (`Node.trace_freshCopy`).
-/

namespace FluxFront

/-! ## Names -/

/-- The name in a named type. -/
def Ty.Form.names : Ty.Form → List String
  | .named name => [name]
  | .qualified name => name.segments
  | _ => []

/-- The names an expression holds. -/
def Expr.Form.names : Expr.Form → List String
  | .identifier name | .member _ name | .opCall _ name _ => [name]
  | _ => []

/-- The names a statement holds. -/
def Stmt.Form.names : Stmt.Form → List String
  | .variable var => [var.name]
  | .forRange var index _ _ => var :: index.toList
  | .tryCatch _ handlers => handlers.flatMap fun h => h.binding.toList
  | .lock _ scope _ => scope.segments
  | _ => []

/-- The names a declaration holds: its own, those of its parameters, fields or members, and the
dotted names it refers to. -/
def Decl.Form.names : Decl.Form → List String
  | .importFile _ newName => newName.toList
  | .usingPath path => path.segments
  | .namespaceDecl name _ | .typeAlias name _ | .data name _ => [name]
  | .classDecl name bases exclusions _ _ =>
    name :: (bases ++ exclusions).flatMap QualifiedName.segments
  | .objectDecl name bases _ _ => name :: bases.flatMap QualifiedName.segments
  | .structDecl name fields _ => name :: fields.map Binding.name
  | .functionDecl name params _ _ | .operatorDecl name params _ _ => name :: params.map Binding.name
  | .variable var => [var.name]
  | .template params _ => params
  | .enumDecl name members => name :: members.map EnumMember.name
  | .asm _ | .statement _ => []

/-- The names a node holds itself. -/
def Node.names : Node → List String
  | declaration d => d.form.names
  | statement s => s.form.names
  | expression e => e.form.names
  | type t => t.form.names

/-! ## Enclosures -/

/-- What stands around a node, up to the nearest function, operator or block inside an expression. -/
structure Enclosure where
  loop : Bool := false
  switch : Bool := false
deriving DecidableEq, Repr, Inhabited

/-- What stands around the nodes directly below a node. -/
def Enclosure.within (e : Enclosure) : Node → Enclosure
  | .statement ⟨.whileLoop _ _, _, _⟩ | .statement ⟨.doWhile _ _, _, _⟩
  | .statement ⟨.forLoop _ _ _ _, _, _⟩ | .statement ⟨.forRange _ _ _ _, _, _⟩ =>
    { e with loop := true }
  | .statement ⟨.switch _ _, _, _⟩ => { e with switch := true }
  | .declaration ⟨.functionDecl _ _ _ _, _, _⟩ | .declaration ⟨.operatorDecl _ _ _ _, _, _⟩
  | .expression ⟨.block _, _, _⟩ => {}
  | _ => e

namespace Node

/-- The nodes from a node down, each with what stands around it. -/
def enclosed (e : Enclosure) (n : Node) : List (Enclosure × Node) :=
  (e, n) :: n.children.attach.flatMap fun ⟨c, _⟩ => c.enclosed (e.within n)
termination_by sizeOf n
decreasing_by exact sizeOf_lt_of_mem_children ‹_›

theorem enclosed_eq (e : Enclosure) (n : Node) :
    n.enclosed e = (e, n) :: n.children.flatMap (enclosed (e.within n)) := by
  rw [enclosed]
  simp

/-- The walk with enclosures meets the nodes of the plain walk. -/
theorem map_snd_enclosed (e : Enclosure) (n : Node) :
    (n.enclosed e).map Prod.snd = Descent.full.walk n := by
  induction n using descend generalizing e with
  | h n ih =>
    rw [enclosed_eq, Descent.walk_eq, List.map_cons, List.map_flatMap]
    exact congrArg (n :: ·.flatten) (List.map_congr_left fun c hc => ih c hc _)

end Node

/-- The nodes of a program, each with what stands around it. -/
def Program.enclosed (p : Program) : List (Enclosure × Node) :=
  p.declarations.flatMap fun d => (Node.declaration d).enclosed {}

theorem Program.map_snd_enclosed (p : Program) : p.enclosed.map Prod.snd = p.nodes := by
  unfold enclosed nodes walk
  rw [List.map_flatMap]
  exact congrArg List.flatten (List.map_congr_left fun d _ => Node.map_snd_enclosed _ _)

theorem Program.mem_nodes_iff {p : Program} {n : Node} :
    n ∈ p.nodes ↔ ∃ e, (e, n) ∈ p.enclosed := by
  rw [← p.map_snd_enclosed]
  simp

/-! ## Faults -/

/-- The kinds of errors that can be told from a finished tree. -/
def visibleKinds : List Diagnostic.Kind :=
  [.misplacedJump, .missingDefaultCase, .duplicateDefaultCase, .invalidAssignmentTarget,
   .interpolationMismatch, .misplacedDeclaration]

/-- What is wrong with the default cases of a switch. -/
def Case.faults (cases : List Case) : List Diagnostic.Kind :=
  (if cases.countP Case.isDefault = 0 then [.missingDefaultCase] else [])
    ++ if 2 ≤ cases.countP Case.isDefault then [.duplicateDefaultCase] else []

/-- What a node is wrong about, given what stands around it. -/
def Node.faults (e : Enclosure) : Node → List Diagnostic.Kind
  | .statement ⟨.breakLoop, _, _⟩ => if e.loop || e.switch then [] else [.misplacedJump]
  | .statement ⟨.continueLoop, _, _⟩ => if e.loop then [] else [.misplacedJump]
  | .statement ⟨.switch _ cases, _, _⟩ => Case.faults cases
  | .statement ⟨.misplaced _, _, _⟩ => [.misplacedDeclaration]
  | .expression ⟨.assign _ target _, _, _⟩ =>
    if target.isAssignable then [] else [.invalidAssignmentTarget]
  | .expression ⟨.interpolated parts values, _, _⟩ =>
    if parts.length = values.length + 1 then [] else [.interpolationMismatch]
  | _ => []

/-! ## Marks -/

/-- What a tree shows of how its text was read. -/
inductive Mark
  /-- A placeholder. -/
  | hole
  /-- A name without characters. -/
  | blank
  /-- A construct where it may not stand. -/
  | fault (kind : Diagnostic.Kind)
deriving DecidableEq, Repr

/-- The marks that names make. -/
def blanks (names : List String) : List Mark := if "" ∈ names then [.blank] else []

@[simp, grind =] theorem mem_blanks {m : Mark} {names : List String} :
    m ∈ blanks names ↔ m = .blank ∧ "" ∈ names := by
  unfold blanks
  split <;> simp [*]

namespace Node

/-- The marks a node makes itself. -/
def marks (e : Enclosure) (n : Node) : List Mark :=
  (if n.isPlaceholder then [.hole] else []) ++ blanks n.names ++ (n.faults e).map .fault

theorem hole_mem_marks {e : Enclosure} {n : Node} : .hole ∈ n.marks e ↔ n.isPlaceholder = true := by
  unfold marks
  split <;> simp [*]

theorem blank_mem_marks {e : Enclosure} {n : Node} : .blank ∈ n.marks e ↔ "" ∈ n.names := by
  unfold marks
  split <;> simp

theorem fault_mem_marks {e : Enclosure} {n : Node} {k : Diagnostic.Kind} :
    .fault k ∈ n.marks e ↔ k ∈ n.faults e := by
  unfold marks
  split <;> simp

/-- The marks from a node down. -/
def trace (e : Enclosure) (n : Node) : List Mark :=
  (n.enclosed e).flatMap fun (e, m) => m.marks e

theorem trace_eq (e : Enclosure) (n : Node) :
    n.trace e = n.marks e ++ n.children.flatMap (trace (e.within n)) := by
  unfold trace
  rw [enclosed_eq, List.flatMap_cons, List.flatMap_assoc]

end Node

/-- The marks of a whole program. -/
def Program.trace (p : Program) : List Mark :=
  p.declarations.flatMap fun d => (Node.declaration d).trace {}

theorem Program.mem_trace {p : Program} {m : Mark} :
    m ∈ p.trace ↔ ∃ e n, (e, n) ∈ p.enclosed ∧ m ∈ n.marks e := by
  unfold trace enclosed Node.trace
  rw [← List.flatMap_assoc, List.mem_flatMap]
  simp

/-! ## Copies

A copy differs from its original in labels only, so it holds the same names and is wrong about the
same things. -/

namespace Edit

variable (s : NodeId)

theorem binding_names (bs : List Binding) :
    (Binding.editList freshCopy bs s).1.map Binding.name = bs.map Binding.name := by
  induction bs generalizing s with
  | nil => rfl
  | cons b more ih =>
    obtain ⟨name, type, span⟩ := b
    simp only [Binding.editList]
    exact congrArg (name :: ·) (ih _)

theorem member_names (ms : List EnumMember) :
    (EnumMember.editList freshCopy ms s).1.map EnumMember.name = ms.map EnumMember.name := by
  induction ms generalizing s with
  | nil => rfl
  | cons m more ih =>
    obtain ⟨name, value, span⟩ := m
    simp only [EnumMember.editList]
    exact congrArg (name :: ·) (ih _)

theorem handler_bindings (hs : List Handler) :
    (Handler.editList freshCopy hs s).1.flatMap (fun h => h.binding.toList)
      = hs.flatMap fun h => h.binding.toList := by
  induction hs generalizing s with
  | nil => rfl
  | cons h more ih =>
    obtain ⟨exception, binding, body, span⟩ := h
    simp only [Handler.editList]
    exact congrArg (binding.toList ++ ·) (ih _)

theorem isNone_editOption (e : Option Expr) :
    (Expr.editOption freshCopy e s).1.isNone = e.isNone := by
  cases e <;> simp only [Expr.editOption] <;> rfl

theorem countP_isDefault (cs : List Case) :
    (Case.editList freshCopy cs s).1.countP Case.isDefault = cs.countP Case.isDefault := by
  induction cs generalizing s with
  | nil => rfl
  | cons c more ih =>
    obtain ⟨pattern, body, span⟩ := c
    simp only [Case.editList]
    refine (List.countP_cons ..).trans ?_
    rw [List.countP_cons]
    have hc : Case.isDefault ⟨(Expr.editOption freshCopy pattern s).1,
        (body.edit freshCopy (Expr.editOption freshCopy pattern s).2).1, span⟩
        = Case.isDefault ⟨pattern, body, span⟩ := isNone_editOption s pattern
    rw [← hc]
    exact congrArg (· + _) (ih _)

theorem length_editList (es : List Expr) :
    (Expr.editList freshCopy es s).1.length = es.length := by
  induction es generalizing s with
  | nil => rfl
  | cons e more ih =>
    simp only [Expr.editList]
    exact congrArg (· + 1) (ih _)

theorem isAssignable_edit (e : Expr) : (e.edit freshCopy s).1.isAssignable = e.isAssignable :=
  e.isAssignable_editAs (fun _ => rfl) none s

end Edit

namespace Node

theorem names_freshCopy (n : Node) (s : NodeId) : (n.edit Edit.freshCopy s).1.names = n.names := by
  cases n with
  | declaration d =>
    obtain ⟨form, span, id⟩ := d
    cases form
    case structDecl name fields isForward => exact congrArg (name :: ·) (Edit.binding_names _ _)
    case functionDecl name params result body =>
      exact congrArg (name :: ·) (Edit.binding_names _ _)
    case operatorDecl name params result body =>
      exact congrArg (name :: ·) (Edit.binding_names _ _)
    case enumDecl name members => exact congrArg (name :: ·) (Edit.member_names _ _)
    case «variable» var =>
      obtain ⟨_, _, _, _, _⟩ := var
      rfl
    all_goals rfl
  | statement t =>
    obtain ⟨form, span, id⟩ := t
    cases form
    case tryCatch body handlers => exact Edit.handler_bindings _ _
    case «variable» var =>
      obtain ⟨_, _, _, _, _⟩ := var
      rfl
    all_goals rfl
  | expression e =>
    obtain ⟨form, span, id⟩ := e
    cases form <;> rfl
  | type t =>
    obtain ⟨form, span, id⟩ := t
    cases form <;> rfl

theorem isPlaceholder_freshCopy (n : Node) (s : NodeId) :
    (n.edit Edit.freshCopy s).1.isPlaceholder = n.isPlaceholder := by
  cases n with
  | declaration d => rfl
  | statement t => rfl
  | expression e =>
    obtain ⟨form, span, id⟩ := e
    cases form <;> rfl
  | type t =>
    obtain ⟨form, span, id⟩ := t
    cases form <;> rfl

theorem within_freshCopy (e : Enclosure) (n : Node) (s : NodeId) :
    e.within (n.edit Edit.freshCopy s).1 = e.within n := by
  cases n with
  | declaration d =>
    obtain ⟨form, span, id⟩ := d
    cases form <;> rfl
  | statement t =>
    obtain ⟨form, span, id⟩ := t
    cases form <;> rfl
  | expression e =>
    obtain ⟨form, span, id⟩ := e
    cases form <;> rfl
  | type t => rfl

theorem faults_freshCopy (e : Enclosure) (n : Node) (s : NodeId) :
    (n.edit Edit.freshCopy s).1.faults e = n.faults e := by
  cases n with
  | declaration d => rfl
  | statement t =>
    obtain ⟨form, span, id⟩ := t
    cases form
    case switch subject cases =>
      show Case.faults (Case.editList Edit.freshCopy cases _).1 = Case.faults cases
      unfold Case.faults
      rw [Edit.countP_isDefault]
    all_goals rfl
  | expression e =>
    obtain ⟨form, span, id⟩ := e
    cases form
    case assign op target value =>
      show (if (target.edit Edit.freshCopy _).1.isAssignable then _ else _) = if _ then _ else _
      rw [Edit.isAssignable_edit]
    case interpolated parts values =>
      show (if _ = (Expr.editList Edit.freshCopy values _).1.length + 1 then _ else _)
        = if _ then _ else _
      rw [Edit.length_editList]
    all_goals rfl
  | type t => rfl

theorem marks_freshCopy (e : Enclosure) (n : Node) (s : NodeId) :
    (n.edit Edit.freshCopy s).1.marks e = n.marks e := by
  unfold marks
  rw [isPlaceholder_freshCopy, names_freshCopy, faults_freshCopy]

/-- A copy has the marks of its original. -/
theorem trace_freshCopy (e : Enclosure) (n : Node) (s : NodeId) :
    (n.edit Edit.freshCopy s).1.trace e = n.trace e := by
  induction n using descend generalizing e s with
  | h n ih =>
    have h := (n.edited Edit.freshCopy_keepsShape s).children
    rw [trace_eq, trace_eq, marks_freshCopy, within_freshCopy]
    -- the children are copied from left to right
    have run : ∀ (ns : List Node) (e : Enclosure), (∀ m ∈ ns, ∀ e s,
        (m.edit Edit.freshCopy s).1.trace e = m.trace e) →
        ∀ s, (ns.mapM (edit Edit.freshCopy) s).1.flatMap (trace e) = ns.flatMap (trace e) := by
      intro ns e
      induction ns with
      | nil => exact fun _ _ => rfl
      | cons m ms ihs =>
        intro hms s
        rw [List.forall_mem_cons] at hms
        rw [List.mapM_cons, List.flatMap_cons, ← hms.1 e s, ← ihs hms.2]
        exact List.flatMap_cons
    have hb := run n.children (e.within n) ih (Edit.freshCopy.label n.sort n.label s).2
    rw [h] at hb
    rw [hb]

end Node

end FluxFront
