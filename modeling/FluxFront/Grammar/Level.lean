import FluxFront.Grammar.Recovery

/-!
# Levels of nesting

Every way for a construct to contain another one goes through a `Level`: the entries of the grammar
one nesting level further in.  A production is an ordinary function of the level below it.

* **Guard**: `within` counts the depth up on the way in and down on the way out.  Where the limit is
  reached, an entry refuses: it reports that the nesting is too deep, skips one token, and gives a
  placeholder.
* **Skimming**: a type is skimmed by the functions that read types; a flag of the state tells them to
  skip array sizes.
-/

namespace FluxFront.Grammar

open Token (Kind)

/-- The body that a declaration stands in. -/
inductive Container
  | outside
  | namespaceBody
  | classBody
  | objectBody
deriving DecidableEq, Repr

/-- What surrounds a statement or a declaration. -/
structure Context where
  container : Container := .outside
  inLoop : Bool := false
  inSwitch : Bool := false
deriving DecidableEq, Repr, Inhabited

namespace Context

/-- Outside of everything. -/
def topLevel : Context := {}

/-- Inside the body of a container. -/
def within (container : Container) : Context := { container }

/-- Inside the body of a function, where the loops around it do not count. -/
def functionBody (c : Context) : Context := { c with inLoop := false, inSwitch := false }

/-- Inside the body of a loop. -/
def looping (c : Context) : Context := { c with inLoop := true }

/-- Inside a case of a switch. -/
def switching (c : Context) : Context := { c with inSwitch := true }

end Context

/-- The entries of the grammar one nesting level further in. -/
structure Level where
  type : Parser Ty
  /-- A type whose array sizes are skipped instead of read. -/
  skim : Parser Ty
  expression : Parser Expr
  conditional : Parser Expr
  power : Parser Expr
  unary : Parser Expr
  statement : Context → Parser Stmt
  /-- The statements of a block, or nothing if there is no room for them. -/
  items : Context → Parser (Option (List Stmt))
  /-- The declarations in a body of the given name, or nothing if there is no room for them. -/
  members : Context → String → Parser (Option (List Decl))
  /-- The declaration behind template parameters, or nothing if there is none or no room. -/
  declaration : Context → Parser (Option (List Decl))

/-- Reports that the limit of nesting is reached and skips a token. -/
def refuse (limit : Nat) : Parser Unit := do
  report .nestingTooDeep ("Nesting exceeds the maximum depth of " ++ toString limit)
    (← current).span
  let _ ← advance

/-- A placeholder for a node that there is no room for. -/
def refuseNode {α : Type} (limit : Nat) (build : Span → NodeId → α) : Parser α := do
  let start ← here
  refuse limit
  node build start

/-- A statement of one placeholder. -/
def placeholderStatement (span : Span) : Parser Stmt := do
  let expr ← nodeAt (Expr.mk .placeholder) span
  nodeAt (Stmt.mk (.expression expr)) span

/-- What every entry does where the limit of nesting is reached. -/
def Level.full (limit : Nat) : Level where
  type := refuseNode limit (Ty.mk .placeholder)
  skim := refuseNode limit (Ty.mk .placeholder)
  expression := refuseNode limit (Expr.mk .placeholder)
  conditional := refuseNode limit (Expr.mk .placeholder)
  power := refuseNode limit (Expr.mk .placeholder)
  unary := refuseNode limit (Expr.mk .placeholder)
  statement _ := do
    let start ← here
    refuse limit
    placeholderStatement (← spanFrom start)
  items _ := do
    refuse limit
    return none
  members _ _ := do
    refuse limit
    return none
  declaration _ := do
    refuse limit
    return none

/-! ## Going in and out -/

/-- Runs a parser one level further in and comes back, or refuses if the limit is reached. -/
def within {α : Type} (limit : Nat) (p refused : Parser α) : Parser α := do
  if (← get).depth < limit then
    modify State.deeper
    let a ← p
    modify State.shallower
    return a
  else refused

/-- Runs a parser with array sizes skipped. -/
def skimmed {α : Type} (p : Parser α) : Parser α := do
  let outer := (← get).skimming
  modify (State.skims true)
  let a ← p
  modify (State.skims outer)
  return a

end FluxFront.Grammar
