import Mathlib.Data.List.Nodup
import FluxFront.Proofs.Checks

/-!
# The checks of a tree are exact

A tree is well formed if the span of every node lies inside that of its parent and no identity is given
to two nodes.

* **Program**: the visitors behind `Program.spanViolation?` and `Program.duplicateId?`.
* **Specification**: a node *occurs* at a path, the numbers of the children to go to from the program
  down, and below a parent, which is the node one step up or the program itself (`Program.Occurs`).
  Paths are compared as words are in a dictionary: a parent comes before what is below it, the left
  before the right.  Each check finds the first occurrence in that order that is wrong, and finds
  nothing just if none is (`Program.checks_find_first`).
* **Completeness**: the children of a node are just the nodes in its fields (`Node.mem_children_iff`), so
  nothing that stands anywhere in a program fails to occur in it.
* **Crux**: the occurrences can be listed in order, and the list is the walk with the paths on it.  So
  the first one that is wrong is the one at which the list splits (`Occurrence.lt_iff_mem_front`).
-/

namespace FluxFront

/-! ## Nodes in the fields of nodes -/

/-- A block has its statements. -/
def Block.Has (b : Block) (c : Node) : Prop := ∃ s ∈ b.statements, c = .statement s

/-- A variable has its type, the arguments of its instantiation and its initial value. -/
def Variable.Has (v : Variable) (c : Node) : Prop :=
  c = .type v.type ∨ (∃ es ∈ v.instantiation, ∃ e ∈ es, c = .expression e) ∨
    ∃ e ∈ v.initializer, c = .expression e

/-- The nodes in the fields of a form of types. -/
def Ty.Form.Has (c : Node) : Ty.Form → Prop
  | .pointer pointee _ => c = .type pointee
  | .array element size => c = .type element ∨ ∃ e ∈ size, c = .expression e
  | .function params result => (∃ t ∈ params, c = .type t) ∨ c = .type result
  | .applied base args => c = .type base ∨ ∃ t ∈ args, c = .type t
  | .builtin _ | .named _ | .qualified _ | .data _ | .placeholder => False

/-- The nodes in the fields of a form of expressions. -/
def Expr.Form.Has (c : Node) : Expr.Form → Prop
  | .unary _ operand _ => c = .expression operand
  | .binary _ left right | .opCall left _ right => c = .expression left ∨ c = .expression right
  | .assign _ target value => c = .expression target ∨ c = .expression value
  | .conditional condition thenValue elseValue =>
    c = .expression condition ∨ c = .expression thenValue ∨ c = .expression elseValue
  | .call callee args => c = .expression callee ∨ ∃ e ∈ args, c = .expression e
  | .member object _ => c = .expression object
  | .subscript object index => c = .expression object ∨ c = .expression index
  | .cast target operand => c = .type target ∨ c = .expression operand
  | .sizeOf t => c = .type t
  | .typeOf inner | .group inner => c = .expression inner
  | .interpolated _ es | .array es => ∃ e ∈ es, c = .expression e
  | .dictionary entries => ∃ e ∈ entries, c = .expression e.key ∨ c = .expression e.value
  | .block statements => ∃ s ∈ statements, c = .statement s
  | .literal _ | .identifier _ | .placeholder => False

/-- The nodes in the fields of a form of statements. -/
def Stmt.Form.Has (c : Node) : Stmt.Form → Prop
  | .expression e | .assertion e => c = .expression e
  | .block body => body.Has c
  | .variable var => var.Has c
  | .ifElse condition thenBranch elseBranch =>
    c = .expression condition ∨ c = .statement thenBranch ∨ ∃ s ∈ elseBranch, c = .statement s
  | .whileLoop condition body | .doWhile body condition => c = .expression condition ∨ c = .statement body
  | .forLoop init condition increment body =>
    (∃ s ∈ init, c = .statement s) ∨ (∃ e ∈ condition, c = .expression e) ∨
      (∃ e ∈ increment, c = .expression e) ∨ c = .statement body
  | .forRange _ _ range body => c = .expression range ∨ c = .statement body
  | .switch subject cases =>
    c = .expression subject ∨ ∃ k ∈ cases, (∃ e ∈ k.pattern, c = .expression e) ∨ k.body.Has c
  | .returnValue value => ∃ e ∈ value, c = .expression e
  | .tryCatch body handlers =>
    body.Has c ∨ ∃ h ∈ handlers, (∃ t ∈ h.exception, c = .type t) ∨ h.body.Has c
  | .throwValue message body => (∃ e ∈ message, c = .expression e) ∨ ∃ b ∈ body, b.Has c
  | .lock _ _ body => ∃ b ∈ body, b.Has c
  | .misplaced decl => c = .declaration decl
  | .breakLoop | .continueLoop | .asm _ => False

/-- The nodes in the fields of a form of declarations. -/
def Decl.Form.Has (c : Node) : Decl.Form → Prop
  | .namespaceDecl _ members | .classDecl _ _ _ members _ | .objectDecl _ _ members _ =>
    ∃ d ∈ members, c = .declaration d
  | .structDecl _ fields _ => ∃ b ∈ fields, c = .type b.type
  | .functionDecl _ params result body =>
    (∃ b ∈ params, c = .type b.type) ∨ c = .type result ∨ ∃ b ∈ body, b.Has c
  | .operatorDecl _ params result body =>
    (∃ b ∈ params, c = .type b.type) ∨ c = .type result ∨ body.Has c
  | .variable var => var.Has c
  | .template _ inner => c = .declaration inner
  | .enumDecl _ members => ∃ m ∈ members, ∃ e ∈ m.value, c = .expression e
  | .typeAlias _ t => c = .type t
  | .statement stmt => c = .statement stmt
  | .importFile _ _ | .usingPath _ | .data _ _ | .asm _ => False

namespace Node

/-- The nodes in the fields of a node. -/
def Has (c : Node) : Node → Prop
  | declaration d => d.form.Has c
  | statement s => s.form.Has c
  | expression e => e.form.Has c
  | type t => t.form.Has c

variable {c : Node}

theorem mem_ofBlock {b : Block} : c ∈ ofBlock b ↔ b.Has c := by
  simp only [ofBlock, Block.Has, List.mem_map, @eq_comm _ c]

theorem mem_ofVariable {v : Variable} : c ∈ ofVariable v ↔ v.Has c := by
  cases h : v.instantiation <;>
    simp [ofVariable, Variable.Has, h, @eq_comm _ c]

theorem mem_ofBindings {bs : List Binding} : c ∈ ofBindings bs ↔ ∃ b ∈ bs, c = .type b.type := by
  simp only [ofBindings, List.mem_map, @eq_comm _ c]

theorem mem_ofTy {form : Ty.Form} : c ∈ ofTy form ↔ form.Has c := by
  cases form <;>
    simp only [ofTy, Ty.Form.Has, List.mem_cons, List.mem_append, List.mem_map, List.not_mem_nil, or_false,
      Option.mem_toList, Option.mem_def, @eq_comm _ c]

theorem mem_ofExpr {form : Expr.Form} : c ∈ ofExpr form ↔ form.Has c := by
  cases form <;>
    simp only [ofExpr, Expr.Form.Has, List.mem_cons, List.mem_map, List.mem_flatMap, List.not_mem_nil,
      or_false, @eq_comm _ c]

theorem mem_ofStmt {form : Stmt.Form} : c ∈ ofStmt form ↔ form.Has c := by
  cases form <;>
    simp only [ofStmt, Stmt.Form.Has, mem_ofBlock, mem_ofVariable, List.mem_cons, List.mem_append,
      List.mem_map, List.mem_flatMap, List.not_mem_nil, or_false, or_assoc, Option.mem_toList,
      Option.mem_def, @eq_comm _ c]
  case doWhile body condition => exact or_comm

theorem mem_ofDecl {form : Decl.Form} : c ∈ ofDecl form ↔ form.Has c := by
  cases form <;>
    simp only [ofDecl, Decl.Form.Has, mem_ofBlock, mem_ofVariable, mem_ofBindings, List.mem_cons,
      List.mem_append, List.mem_map, List.mem_flatMap, List.not_mem_nil, or_false, Option.mem_toList,
      Option.mem_def, @eq_comm _ c]

/-- **Nothing is left out**: the children of a node are just the nodes in its fields. -/
theorem mem_children_iff {n : Node} : c ∈ n.children ↔ c.Has n := by
  cases n with
  | declaration d => exact mem_ofDecl
  | statement s => exact mem_ofStmt
  | expression e => exact mem_ofExpr
  | type t => exact mem_ofTy

end Node

/-! ## Occurrences -/

/-- A node in its place: its path, the span of its parent, and the node itself. -/
structure Occurrence where
  path : List Nat
  parent : Span
  node : Node

/-- Where the nodes of a program are: its declarations are below the program, all others are children
of nodes. -/
inductive Program.Occurs (p : Program) : Occurrence → Prop
  | declaration {i : Nat} {d : Decl} (h : p.declarations[i]? = some d) :
      Occurs p ⟨[i], p.span, .declaration d⟩
  | child {o : Occurrence} {i : Nat} {c : Node} (ho : Occurs p o) (h : o.node.children[i]? = some c) :
      Occurs p ⟨o.path ++ [i], o.node.span, c⟩

/-- Whatever stands in a field of a node that occurs in a program occurs below it. -/
theorem Program.Occurs.of_has {p : Program} {o : Occurrence} (ho : p.Occurs o) {c : Node}
    (h : c.Has o.node) : ∃ i, p.Occurs ⟨o.path ++ [i], o.node.span, c⟩ := by
  obtain ⟨i, hi⟩ := List.getElem?_of_mem (Node.mem_children_iff.2 h)
  exact ⟨i, .child ho hi⟩

namespace Occurrence

/-- One occurrence comes before another one in pre-order. -/
instance : LT Occurrence := ⟨fun a b => a.path < b.path⟩

theorem lt_def {a b : Occurrence} : a < b ↔ a.path < b.path := Iff.rfl

theorem lt_irrefl (a : Occurrence) : ¬ a < a := List.lt_irrefl a.path

theorem lt_trans {a b c : Occurrence} (hab : a < b) (hbc : b < c) : a < c :=
  List.lt_trans (lt_def.1 hab) (lt_def.1 hbc)

/-- The span of the node is not inside that of its parent. -/
def Outside (o : Occurrence) : Prop := o.parent.contains o.node.span = false

/-- An occurrence and those below it, in pre-order. -/
def walk (o : Occurrence) : List Occurrence :=
  o :: o.node.children.zipIdx.attach.flatMap fun ⟨c, _⟩ =>
    walk ⟨o.path ++ [c.2], o.node.span, c.1⟩
termination_by sizeOf o.node
decreasing_by exact Node.sizeOf_lt_of_mem_children (List.fst_mem_of_mem_zipIdx ‹_›)

/-- The occurrences of some nodes below one parent, and those below them, in pre-order. -/
def walkAll (path : List Nat) (parent : Span) (ns : List Node) : List Occurrence :=
  ns.zipIdx.flatMap fun c => walk ⟨path ++ [c.2], parent, c.1⟩

theorem walk_eq (o : Occurrence) : o.walk = o :: walkAll o.path o.node.span o.node.children := by
  rw [walk, walkAll]
  conv_rhs => rw [← List.attach_map_subtype_val o.node.children.zipIdx, List.flatMap_map]

theorem mem_walk_self (o : Occurrence) : o ∈ o.walk := by
  rw [walk_eq]
  exact List.mem_cons_self

theorem mem_walkAll {path : List Nat} {parent : Span} {ns : List Node} {o : Occurrence} :
    o ∈ walkAll path parent ns ↔ ∃ i c, ns[i]? = some c ∧ o ∈ walk ⟨path ++ [i], parent, c⟩ := by
  simp only [walkAll, List.mem_flatMap, List.mem_zipIdx_iff_getElem?, Prod.exists]
  exact exists_comm

/-- If this is so for each child, the occurrences below one parent without their paths are the walks
with parents. -/
theorem map_walkAll_of_forall {path : List Nat} {parent : Span} {ns : List Node}
    (h : ∀ n ∈ ns, ∀ path parent, (walk ⟨path, parent, n⟩).map (fun o => (o.parent, o.node)) =
      Descent.full.walkWithParents parent n) :
    (walkAll path parent ns).map (fun o => (o.parent, o.node)) =
      ns.flatMap (Descent.full.walkWithParents parent) := by
  have hchildren : ∀ c ∈ ns.zipIdx,
      (walk ⟨path ++ [c.2], parent, c.1⟩).map (fun o => (o.parent, o.node)) =
        Descent.full.walkWithParents parent c.1 :=
    fun c hc => h c.1 (List.fst_mem_of_mem_zipIdx hc) _ _
  rw [walkAll, List.map_flatMap, List.flatMap_congr hchildren]
  conv_rhs => rw [← List.zipIdx_map_fst 0 ns, List.flatMap_map]

/-- The occurrences without their paths are the walks with parents. -/
theorem map_walkAll (path : List Nat) (parent : Span) (ns : List Node) :
    (walkAll path parent ns).map (fun o => (o.parent, o.node)) =
      ns.flatMap (Descent.full.walkWithParents parent) := by
  have hnode : ∀ (n : Node) (path : List Nat) (parent : Span),
      (walk ⟨path, parent, n⟩).map (fun o => (o.parent, o.node)) =
        Descent.full.walkWithParents parent n := by
    intro n
    induction n using Node.descend with
    | h n ih =>
      intro path parent
      rw [walk_eq, Descent.walkWithParents_eq, List.map_cons]
      exact congrArg ((parent, n) :: ·) (map_walkAll_of_forall ih)
  exact map_walkAll_of_forall fun n _ => hnode n

/-- Below an occurrence, paths go on. -/
theorem exists_path_of_mem_walk {o o' : Occurrence} (h : o' ∈ o.walk) :
    ∃ rest, o'.path = o.path ++ rest := by
  obtain ⟨path, parent, n⟩ := o
  induction n using Node.descend generalizing path parent with
  | h n ih =>
    rw [walk_eq, List.mem_cons, mem_walkAll] at h
    rcases h with rfl | ⟨i, c, hc, hmem⟩
    · exact ⟨[], (List.append_nil path).symm⟩
    · obtain ⟨rest, hrest⟩ := ih c (List.mem_of_getElem? hc) _ _ hmem
      exact ⟨i :: rest, by rw [hrest, List.append_assoc]; rfl⟩

/-- Paths are compared behind a common front. -/
theorem append_lt_append (path : List Nat) {xs ys : List Nat} (h : xs < ys) : path ++ xs < path ++ ys := by
  induction path with
  | nil => exact h
  | cons i path ih => exact List.cons_lt_cons_iff.2 (.inr ⟨rfl, ih⟩)

/-- The occurrences below one parent are in order if each child is walked in order. -/
theorem pairwise_walkAll {path : List Nat} {parent : Span} {ns : List Node}
    (h : ∀ n ∈ ns, ∀ path parent, (walk ⟨path, parent, n⟩).Pairwise (· < ·)) :
    (walkAll path parent ns).Pairwise (· < ·) := by
  unfold walkAll
  rw [List.pairwise_flatMap]
  refine ⟨fun c hc => h c.1 (List.fst_mem_of_mem_zipIdx hc) _ _, ?_⟩
  have hindices : ns.zipIdx.Pairwise fun c d => c.2 < d.2 := by
    rw [← List.pairwise_map (f := Prod.snd), List.zipIdx_map_snd]
    exact List.pairwise_lt_range'
  refine hindices.imp fun {c d} hlt a ha b hb => ?_
  -- the two paths part at the numbers of the children
  obtain ⟨rest, ha⟩ := exists_path_of_mem_walk ha
  obtain ⟨rest', hb⟩ := exists_path_of_mem_walk hb
  rw [lt_def, ha, hb, List.append_assoc, List.append_assoc]
  exact append_lt_append path (List.cons_lt_cons_iff.2 (.inl hlt))

theorem pairwise_walk (o : Occurrence) : o.walk.Pairwise (· < ·) := by
  obtain ⟨path, parent, n⟩ := o
  induction n using Node.descend generalizing path parent with
  | h n ih =>
    rw [walk_eq, List.pairwise_cons]
    refine ⟨fun o ho => ?_, pairwise_walkAll fun c hc => ih c hc⟩
    obtain ⟨i, c, hc, ho⟩ := mem_walkAll.1 ho
    obtain ⟨rest, ho⟩ := exists_path_of_mem_walk ho
    have hlt : path ++ [] < path ++ i :: rest := append_lt_append path (List.nil_lt_cons i rest)
    rw [List.append_nil] at hlt
    rw [lt_def, ho, List.append_assoc]
    exact hlt

/-- The children of an occurrence below another one are below that one. -/
theorem child_mem_walk {o o' : Occurrence} (h : o' ∈ o.walk) {i : Nat} {c : Node}
    (hc : o'.node.children[i]? = some c) : ⟨o'.path ++ [i], o'.node.span, c⟩ ∈ o.walk := by
  obtain ⟨path, parent, n⟩ := o
  induction n using Node.descend generalizing path parent with
  | h n ih =>
    rw [walk_eq, List.mem_cons, mem_walkAll] at h ⊢
    rcases h with rfl | ⟨j, d, hd, hmem⟩
    · exact .inr ⟨i, c, hc, mem_walk_self _⟩
    · exact .inr ⟨j, d, hd, ih d (List.mem_of_getElem? hd) _ _ hmem⟩

/-! ## The first one in a list -/

variable {os front back : List Occurrence} {o : Occurrence}

/-- In a list in order, what comes before one occurrence is what stands in front of it. -/
theorem lt_iff_mem_front (h : (front ++ o :: back).Pairwise (· < ·)) {a : Occurrence}
    (ha : a ∈ front ++ o :: back) : a < o ↔ a ∈ front := by
  obtain ⟨-, hback, hfront⟩ := List.pairwise_append.1 h
  constructor
  · intro hlt
    rw [List.mem_append, List.mem_cons] at ha
    rcases ha with ha | rfl | ha
    · exact ha
    · exact absurd hlt (lt_irrefl _)
    · exact absurd (lt_trans hlt ((List.pairwise_cons.1 hback).1 a ha)) (lt_irrefl a)
  · intro ha
    exact hfront a ha o List.mem_cons_self

/-- What is found first in a list in order is before everything else that could have been found. -/
theorem find?_eq_some (h : os.Pairwise (· < ·)) {P : Occurrence → Bool} :
    os.find? P = some o ↔ o ∈ os ∧ P o = true ∧ ∀ a ∈ os, a < o → P a = false := by
  rw [List.find?_eq_some_iff_append]
  constructor
  · rintro ⟨hP, front, back, rfl, hfront⟩
    refine ⟨List.mem_append_right _ List.mem_cons_self, hP, fun a ha hlt => ?_⟩
    simpa using hfront a ((lt_iff_mem_front h ha).1 hlt)
  · rintro ⟨ho, hP, hfirst⟩
    obtain ⟨front, back, rfl⟩ := List.append_of_mem ho
    refine ⟨hP, front, back, rfl, fun a ha => ?_⟩
    have hmem : a ∈ front ++ o :: back := List.mem_append_left _ ha
    simpa using hfirst a hmem ((lt_iff_mem_front h hmem).2 ha)

end Occurrence

/-! ## The occurrences of a program -/

namespace Program

variable {p : Program} {o : Occurrence}

/-- The occurrences of the nodes of a program, in pre-order. -/
def occurrences (p : Program) : List Occurrence :=
  Occurrence.walkAll [] p.span (p.declarations.map .declaration)

theorem Occurs.walk (h : p.Occurs o) : ∀ a ∈ o.walk, p.Occurs a := by
  obtain ⟨path, parent, n⟩ := o
  induction n using Node.descend generalizing path parent with
  | h n ih =>
    intro a ha
    rw [Occurrence.walk_eq, List.mem_cons, Occurrence.mem_walkAll] at ha
    rcases ha with rfl | ⟨i, c, hc, ha⟩
    · exact h
    · exact ih c (List.mem_of_getElem? hc) _ _ (h.child hc) a ha

/-- The list has all occurrences. -/
theorem mem_occurrences : o ∈ p.occurrences ↔ p.Occurs o := by
  unfold occurrences
  rw [Occurrence.mem_walkAll]
  constructor
  · rintro ⟨i, n, hn, ho⟩
    rw [List.getElem?_map] at hn
    obtain ⟨d, hd, rfl⟩ := Option.map_eq_some_iff.1 hn
    exact (Occurs.declaration hd).walk o ho
  · intro h
    induction h with
    | @declaration i d h =>
      exact ⟨i, .declaration d, by rw [List.getElem?_map, h]; rfl, Occurrence.mem_walk_self _⟩
    | child ho h ih =>
      obtain ⟨j, n, hn, hmem⟩ := ih
      exact ⟨j, n, hn, Occurrence.child_mem_walk hmem h⟩

theorem pairwise_occurrences (p : Program) : p.occurrences.Pairwise (· < ·) :=
  Occurrence.pairwise_walkAll fun _ _ _ _ => Occurrence.pairwise_walk _

theorem nodup_occurrences (p : Program) : p.occurrences.Nodup := by
  refine p.pairwise_occurrences.imp fun {a b} hlt heq => ?_
  rw [heq] at hlt
  exact Occurrence.lt_irrefl b hlt

theorem nodesWithParents_eq (p : Program) :
    p.nodesWithParents = p.occurrences.map fun o => (o.parent, o.node) := by
  unfold nodesWithParents occurrences
  rw [Occurrence.map_walkAll, List.flatMap_map]

theorem nodes_eq (p : Program) : p.nodes = p.occurrences.map Occurrence.node := by
  have hnodes : p.nodes = p.nodesWithParents.map Prod.snd := by
    unfold nodes Program.walk nodesWithParents
    rw [List.map_flatMap]
    congr 1
    funext d
    exact (Descent.map_walkWithParents p.span (.declaration d)).symm
  rw [hnodes, nodesWithParents_eq, List.map_map]
  rfl

/-! ## What the checks find -/

/-- The identity of the node was met before. -/
def Repeats (p : Program) (o : Occurrence) : Prop :=
  ∃ a, p.Occurs a ∧ a < o ∧ a.node.id = o.node.id

/-- The first occurrence with a property. -/
structure First (p : Program) (P : Occurrence → Prop) (o : Occurrence) : Prop where
  occurs : p.Occurs o
  holds : P o
  before : ∀ a, p.Occurs a → a < o → ¬ P a

/-- What is found first in the list of occurrences is the first one in the program. -/
theorem find?_occurrences {P : Occurrence → Prop} {test : Occurrence → Bool}
    (h : ∀ o, test o = true ↔ P o) : p.occurrences.find? test = some o ↔ p.First P o := by
  rw [Occurrence.find?_eq_some p.pairwise_occurrences]
  constructor
  · rintro ⟨ho, htest, hfirst⟩
    refine ⟨mem_occurrences.1 ho, (h o).1 htest, fun a ha hlt hP => ?_⟩
    rw [← h, hfirst a (mem_occurrences.2 ha) hlt] at hP
    exact Bool.false_ne_true hP
  · rintro ⟨ho, hP, hfirst⟩
    refine ⟨mem_occurrences.2 ho, (h o).2 hP, fun a ha hlt => ?_⟩
    rw [← Bool.not_eq_true, h]
    exact hfirst a (mem_occurrences.1 ha) hlt

theorem spanViolation?_eq_find? (p : Program) :
    p.spanViolation? = (p.occurrences.find? fun o => !o.parent.contains o.node.span).map
      fun o => (o.parent, o.node.span) := by
  rw [spanViolation?_eq, nodesWithParents_eq, firstOutside, List.find?_map, Option.map_map]
  rfl

/-- A violation is the first occurrence outside of its parent. -/
theorem spanViolation?_eq_some {outer inner : Span} :
    p.spanViolation? = some (outer, inner) ↔
      ∃ o, p.First Occurrence.Outside o ∧ o.parent = outer ∧ o.node.span = inner := by
  rw [spanViolation?_eq_find?, Option.map_eq_some_iff]
  refine exists_congr fun o => and_congr ?_ (Prod.mk.injEq .. ▸ Iff.rfl)
  exact find?_occurrences fun o => by rw [Occurrence.Outside, Bool.not_eq_true']

/-- There is no violation just if no occurrence is outside of its parent. -/
theorem spanViolation?_eq_none_iff :
    p.spanViolation? = none ↔ ∀ o, p.Occurs o → ¬ o.Outside := by
  rw [spanViolation?_eq_find?, Option.map_eq_none_iff, List.find?_eq_none]
  simp only [mem_occurrences, Occurrence.Outside, Bool.not_eq_true']

/-- Within a front of the occurrences, identities differ just if none of them is met twice. -/
theorem nodup_front {front back : List Occurrence} (h : p.occurrences = front ++ back) :
    (front.map (·.node.id)).Nodup ↔ ∀ a ∈ front, ¬ p.Repeats a := by
  have hsorted := p.pairwise_occurrences
  rw [h] at hsorted
  have hfront := (List.pairwise_append.1 hsorted).1
  constructor
  · rintro hnodup a ha ⟨b, hb, hlt, hid⟩
    rw [← mem_occurrences, h, List.mem_append] at hb
    rcases hb with hb | hb
    · rw [List.inj_on_of_nodup_map hnodup hb ha hid] at hlt
      exact Occurrence.lt_irrefl a hlt
    · -- what is behind the front does not come before any of it
      exact Occurrence.lt_irrefl b
        (Occurrence.lt_trans hlt ((List.pairwise_append.1 hsorted).2.2 a ha b hb))
  · intro hnone
    rw [List.Nodup, List.pairwise_map]
    refine hfront.imp_of_mem fun {b a} hb ha hlt hid => hnone a ha ⟨b, ?_, hlt, hid⟩
    rw [← mem_occurrences, h]
    exact List.mem_append_left _ hb

/-- The identity that is found is that of the first occurrence whose identity was met before. -/
theorem duplicateId?_eq_some {id : NodeId} :
    p.duplicateId? = some id ↔ ∃ o, p.First p.Repeats o ∧ o.node.id = id := by
  rw [duplicateId?_eq, nodes_eq, List.map_map, firstRepeated_eq_some]
  have hsorted := p.pairwise_occurrences
  constructor
  · rintro ⟨ids, more, hsplit, hid, hnone⟩
    obtain ⟨front, rest, hos, rfl, hrest⟩ := List.map_eq_append_iff.1 hsplit
    obtain ⟨o, back, rfl, rfl, -⟩ := List.map_eq_cons_iff.1 hrest
    obtain ⟨a, ha, haid⟩ := List.mem_map.1 (hid.resolve_right List.not_mem_nil)
    rw [hos] at hsorted
    have hmem : ∀ b, p.Occurs b ↔ b ∈ front ++ o :: back := fun b => by rw [← mem_occurrences, hos]
    have hfront : ∀ b ∈ front, b ∈ front ++ o :: back := fun b hb => List.mem_append_left _ hb
    refine ⟨o, ⟨(hmem o).2 (by simp), ⟨a, (hmem a).2 (hfront a ha), ?_, haid⟩, ?_⟩, rfl⟩
    · exact (Occurrence.lt_iff_mem_front hsorted (hfront a ha)).2 ha
    · intro b hb hlt
      exact (nodup_front hos).1 (firstRepeated_eq_none.1 hnone).1 b
        ((Occurrence.lt_iff_mem_front hsorted ((hmem b).1 hb)).1 hlt)
  · rintro ⟨o, ⟨ho, ⟨a, ha, hlt, hid⟩, hfirst⟩, rfl⟩
    obtain ⟨front, back, hos⟩ := List.append_of_mem (mem_occurrences.2 ho)
    rw [hos] at hsorted
    have hfront : ∀ b, p.Occurs b → b < o → b ∈ front := by
      intro b hb hlt
      rw [← mem_occurrences, hos] at hb
      exact (Occurrence.lt_iff_mem_front hsorted hb).1 hlt
    refine ⟨front.map (·.node.id), back.map (·.node.id), by rw [hos, List.map_append]; rfl,
      .inl (List.mem_map.2 ⟨a, hfront a ha hlt, hid⟩), firstRepeated_eq_none.2 ⟨?_, by simp⟩⟩
    refine (nodup_front hos).2 fun b hb => hfirst b ?_ ?_
    · rw [← mem_occurrences, hos]
      exact List.mem_append_left _ hb
    · exact (Occurrence.lt_iff_mem_front hsorted (List.mem_append_left _ hb)).2 hb

theorem duplicateId?_eq_none : p.duplicateId? = none ↔ (p.nodes.map Node.id).Nodup := by
  rw [duplicateId?_eq, firstRepeated_eq_none]
  simp

/-- Nothing is found just if no two occurrences have one identity. -/
theorem duplicateId?_eq_none_iff :
    p.duplicateId? = none ↔ ∀ o a, p.Occurs o → p.Occurs a → o.node.id = a.node.id → o = a := by
  rw [duplicateId?_eq_none, nodes_eq, List.map_map]
  simp only [← mem_occurrences]
  constructor
  · intro h o a ho ha hid
    exact List.inj_on_of_nodup_map h ho ha hid
  · intro h
    exact p.nodup_occurrences.map_on fun o ho a ha => h o a ho ha

/-- **The checks are exact.**  A span violation is the first node in pre-order that is not inside its
parent, reported as the span of the parent and that of the node, and there is none just if every node is
inside its parent.  A repeated identity is that of the first node in pre-order whose identity was met
before, and there is none just if no two nodes have one identity. -/
theorem checks_find_first (p : Program) :
    (∀ outer inner, p.spanViolation? = some (outer, inner) ↔
      ∃ o, p.First Occurrence.Outside o ∧ o.parent = outer ∧ o.node.span = inner) ∧
    (p.spanViolation? = none ↔ ∀ o, p.Occurs o → ¬ o.Outside) ∧
    (∀ id, p.duplicateId? = some id ↔ ∃ o, p.First p.Repeats o ∧ o.node.id = id) ∧
    (p.duplicateId? = none ↔ ∀ o a, p.Occurs o → p.Occurs a → o.node.id = a.node.id → o = a) :=
  ⟨fun _ _ => spanViolation?_eq_some, spanViolation?_eq_none_iff, fun _ => duplicateId?_eq_some,
    duplicateId?_eq_none_iff⟩

/-- An expression behind the statement it is in. -/
example :
    let place (first last : Nat) : Span := ⟨⟨1, first + 1, first⟩, ⟨1, last + 1, last⟩⟩
    let stmt : Stmt := ⟨.expression ⟨.identifier "abc", place 10 13, 10⟩, place 0 5, 0⟩
    (Program.mk [⟨.statement stmt, place 0 5, 0⟩] (place 0 20)).spanViolation? =
      some (place 0 5, place 10 13) := by
  decide +kernel

end Program

end FluxFront
