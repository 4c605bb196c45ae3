import FluxFront.Tree.Visitor

/-!
# Questions about trees

What a program declares, how large it is, and whether its nodes are well formed: identities given
out once, and every span inside the span of its parent.  Names and sizes are read off a walk; the
checks are made by visitors, which remember what they have met and where they are.
-/

namespace FluxFront

/-! ## Sizes -/

namespace Node

/-- How many nodes there are at and below a node. -/
def size (n : Node) : Nat := (Descent.full.walk n).length

/-- The nodes below a child are among those below its parent. -/
theorem size_lt_of_mem_children {c n : Node} (h : c ∈ n.children) : c.size < n.size := by
  have hsub : (Descent.full.walk c).Sublist (n.children.flatMap Descent.full.walk) :=
    List.sublist_flatten_of_mem (List.mem_map_of_mem h)
  unfold size
  rw [Descent.walk_eq _ n, List.length_cons]
  exact Nat.lt_succ_of_le hsub.length_le

theorem size_pos (n : Node) : 0 < n.size := by
  unfold size
  rw [Descent.walk_eq, List.length_cons]
  exact Nat.succ_pos _

/-- With room for a node there is less, but enough, room for its children. -/
theorem exists_room {n : Node} {room : Nat} (h : n.size ≤ room) :
    ∃ less, room = less + 1 ∧ ∀ c ∈ n.children, c.size ≤ less := by
  have hpos := n.size_pos
  refine ⟨room - 1, by omega, fun c hc => ?_⟩
  have hlt := size_lt_of_mem_children hc
  omega

end Node

/-! ## Expressions -/

namespace Expr

/-- All nodes of an expression, each before those below it. -/
def nodes (e : Expr) : List Node := Descent.full.walk (.expression e)

/-- How many nodes an expression has. -/
def size (e : Expr) : Nat := e.nodes.length

/-- How many calls an expression contains. -/
def countCalls (e : Expr) : Nat :=
  e.nodes.countP fun
    | .expression ⟨.call _ _, _, _⟩ => true
    | _ => false

/-- Whether an expression contains a call. -/
def containsCalls (e : Expr) : Bool := decide (0 < e.countCalls)

/-- The names an expression refers to, in alphabetical order and without repetition. -/
def identifiers (e : Expr) : List String :=
  let names := e.nodes.filterMap fun
    | .expression ⟨.identifier name, _, _⟩ => some name
    | _ => none
  names.eraseDups.mergeSort fun a b => decide (a ≤ b)

end Expr

/-! ## Checks -/

/-- The identities met so far, and the first one of them that had been met before. -/
structure IdCollector where
  seen : List NodeId := []
  duplicate : Option NodeId := none

/-- Takes down an identity. -/
def IdCollector.record (c : IdCollector) (id : NodeId) : IdCollector where
  seen := id :: c.seen
  duplicate := if c.seen.contains id && c.duplicate.isNone then some id else c.duplicate

/-- Takes down the identity of every node. -/
def IdCollector.visitor : Visitor IdCollector where
  enter n c := c.record n.id

/-- The spans of what was entered and not left yet, the innermost first, and the first span that was
not inside the one around it, behind that one. -/
structure SpanChecker where
  parents : List Span
  violation : Option (Span × Span) := none

namespace SpanChecker

/-- Checks a span against the innermost one and makes it the innermost. -/
def enter (c : SpanChecker) (span : Span) : SpanChecker where
  parents := span :: c.parents
  violation :=
    match c.violation, c.parents with
    | none, parent :: _ => if parent.contains span then none else some (parent, span)
    | known, _ => known

/-- Goes back to what is around the innermost span. -/
def leave (c : SpanChecker) : SpanChecker := { c with parents := c.parents.tail }

/-- Checks the span of every node. -/
def visitor : Visitor SpanChecker where
  enter n c := c.enter n.span
  leave _ c := c.leave

end SpanChecker

/-! ## Programs -/

namespace Program

/-- From a declaration to what it contains without passing through a statement.  A template is
passed together with the declaration it wraps, whose name it has. -/
def namingDescent : Descent where
  next
    | .declaration ⟨.template _ inner, _, _⟩ => (Node.declaration inner).children
    | .statement _ => []
    | n => n.children
  smaller {c n} h := by
    split at h
    · have := Node.sizeOf_lt_of_mem_children h
      grind
    · simp at h
    · exact Node.sizeOf_lt_of_mem_children h

/-- The names that the declarations of a program introduce, members of bodies included. -/
def declaredNames (p : Program) : List String :=
  (p.walk namingDescent).filterMap fun
    | .declaration d => d.name?
    | _ => none

/-- How many nodes a program has. -/
def countNodes (p : Program) : Nat := p.nodes.length

/-- Whether some part of a program could not be read. -/
def containsPlaceholder (p : Program) : Bool := p.nodes.any Node.isPlaceholder

/-- The first identity that a visitor meets a second time. -/
def duplicateId? (p : Program) : Option NodeId := (p.visit IdCollector.visitor {}).duplicate

/-- The span of the first node a visitor meets that is not inside its parent, behind the parent's
span. -/
def spanViolation? (p : Program) : Option (Span × Span) :=
  (p.visit SpanChecker.visitor { parents := [p.span] }).violation

/-- The types of a program. -/
def types (p : Program) : List Ty :=
  p.nodes.filterMap fun
    | .type t => some t
    | _ => none

/-- The expressions of a program that are not part of another expression. -/
def outermostExpressions (p : Program) : List Expr :=
  (p.walk (.entering fun n => n.sort != .expression)).filterMap fun
    | .expression e => some e
    | _ => none

end Program

end FluxFront
