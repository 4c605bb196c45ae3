import FluxFront.Tree.Edit

/-!
# Editing passes

The passes over a whole program, each one an `Edit`.
-/

namespace FluxFront

namespace Edit

/-- Gives the statements, expressions and types of a copied subtree fresh identities, counting on
from the state.  Declarations keep theirs. -/
def freshCopy : Edit NodeId where
  label sort label := do
    if sort = .declaration then return label
    else
      let id ← get
      set (id + 1)
      return { label with id }

/-- Numbers all nodes in the order they are met, counting on from the state in 32-bit words. -/
def renumber : Edit NodeId where
  label _ label := do
    let id ← get
    set ((id + 1) % 0x100000000)
    return { label with id }

/-- Changes the label of the nodes with an identity. -/
def relabel (id : NodeId) (change : Label → Label) : Edit Unit where
  label _ label := return if label.id = id then change label else label

end Edit

namespace Program

/-- Does a pass that needs no state. -/
def editPure (k : Edit Unit) (p : Program) : Program := ((p.edit k).run ()).1

/-- Puts a text in front of the name in every identifier expression. -/
def rename (lead : String) : Program → Program := editPure { identifier := (lead ++ ·) }

/-- Puts a text in front of the name of every named type. -/
def renameTypes (lead : String) : Program → Program := editPure { typeName := (lead ++ ·) }

/-- Drops the parentheses around expressions; the expression inside takes their place. -/
def ungroup : Program → Program := editPure { ungroups := true }

/-- Numbers all nodes in the order they are met. -/
def renumber (first : NodeId) (p : Program) : Program :=
  ((p.edit Edit.renumber).run (first % 0x100000000)).1

/-- Gives the nodes with an identity another one. -/
def setId (id newId : NodeId) : Program → Program :=
  editPure (.relabel id ({ · with id := newId }))

/-- Gives the nodes with an identity another span. -/
def setSpan (id : NodeId) (span : Span) : Program → Program :=
  editPure (.relabel id ({ · with span }))

/-- Replaces the expressions and types with an identity by placeholders. -/
def blank (id : NodeId) : Program → Program := editPure { blanks := (· == id) }

end Program

end FluxFront
