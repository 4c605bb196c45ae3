import FluxFront.Grammar.Stmt

/-!
# Tying the levels together

Each level is built from the productions over the level below.  There are two ways to tie them, which
give the same.

* **Counting**: the grammar that runs counts its depth in the state.  An entry whose depth has reached
  the limit refuses, whatever level it belongs to, so the number of levels has no say as long as there
  are more of them than the limit.
* **Room**: in `grammar limit room` an entry refuses on the level that has no room left, so that the
  depth is the number of levels passed on the way in.  The state need not be looked at, which suits
  inductions on the room.
-/

namespace FluxFront.Grammar

/-- A parser that is only built when it is run, so that the levels are unfolded as deep as a text
needs and no deeper. -/
def delay {α : Type} (p : Unit → Parser α) : Parser α := fun s => p () s

@[simp] theorem delay_eq {α : Type} (p : Unit → Parser α) : delay p = p () := rfl

/-! ## Counting the depth -/

/-- The level above another one whose entries run one level further in; where the limit is reached,
the entries of `refused` are run in their place. -/
def Level.counted (limit : Nat) (refused : Level) (inner : Unit → Level) : Level where
  type := within limit
    (delay fun _ => typeBody (arraySize (inner ()).expression) (inner ()).type) refused.type
  skim := skimmed <| within limit
    (delay fun _ => typeBody (arraySize (inner ()).expression) (inner ()).type) refused.type
  expression := within limit (delay fun _ => expressionBody (inner ())) refused.expression
  conditional := within limit (delay fun _ => conditionalBody (inner ())) refused.conditional
  power := within limit (delay fun _ => powerBody (inner ())) refused.power
  unary := within limit (delay fun _ => unaryBody (inner ())) refused.unary
  statement context := within limit
    (delay fun _ => statementBody (inner ()) context) (refused.statement context)
  items context := within limit
    (delay fun _ => some <$> itemsBody (inner ()) context) (refused.items context)
  members context what := within limit
    (delay fun _ => some <$> membersBody (inner ()) context what) (refused.members context what)
  declaration context := within limit
    (delay fun _ => declarationBody (inner ()) context) (refused.declaration context)

/-- A number of counting levels, where `refused` tells what is done at the limit. -/
def countedOver (limit : Nat) (refused : Level) : Nat → Level
  | 0 => refused
  | fuel + 1 => Level.counted limit refused fun _ => countedOver limit refused fuel

/-- The grammar that counts its depth up to a limit. -/
def counted (limit : Nat) : Nat → Level := countedOver limit (Level.full limit)

/-! ## Using up the room -/

/-- The level above another one. -/
def Level.above (inner : Unit → Level) : Level where
  type := delay fun _ => typeBody (inner ()).expression (inner ()).type
  skim := delay fun _ => typeBody skippedSize (inner ()).skim
  expression := delay fun _ => expressionBody (inner ())
  conditional := delay fun _ => conditionalBody (inner ())
  power := delay fun _ => powerBody (inner ())
  unary := delay fun _ => unaryBody (inner ())
  statement context := delay fun _ => statementBody (inner ()) context
  items context := delay fun _ => some <$> itemsBody (inner ()) context
  members context what := delay fun _ => some <$> membersBody (inner ()) context what
  declaration context := delay fun _ => declarationBody (inner ()) context

/-- A number of levels over a given one at the bottom. -/
def grammarOver (bottom : Level) : Nat → Level
  | 0 => bottom
  | room + 1 => Level.above fun _ => grammarOver bottom room

/-- The grammar with room for a number of further levels, where `limit` is the number that messages
speak of. -/
def grammar (limit : Nat) : Nat → Level := grammarOver (Level.full limit)

end FluxFront.Grammar
