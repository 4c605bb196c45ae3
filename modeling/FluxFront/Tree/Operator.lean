/-!
# Operators of expressions

The unary, binary and assignment operators, how they are written, and how strongly the binary ones
bind.  The printer sets parentheses by `BinaryOp.precedence`; the grammar has levels of its own.
-/

namespace FluxFront

/-- Operators with one operand. -/
inductive UnaryOp
  | not
  | negate
  | plus
  | bitNot
  | increment
  | decrement
  | deref
  | addressOf
deriving DecidableEq, Repr

/-- How a unary operator is written. -/
def UnaryOp.symbol : UnaryOp → String
  | not => "!"
  | negate => "-"
  | plus => "+"
  | bitNot => "~"
  | increment => "++"
  | decrement => "--"
  | deref => "*"
  | addressOf => "@"

/-- Where a unary operator stands. -/
inductive Placement
  | before
  | after
deriving DecidableEq, Repr

/-- Operators with two operands, loosest first. -/
inductive BinaryOp
  | or
  | and
  | bitOr
  | bitXor
  | bitAnd
  | equal
  | notEqual
  | is
  | less
  | lessEqual
  | greater
  | greaterEqual
  | shl
  | shr
  | add
  | subtract
  | multiply
  | divide
  | modulo
  | power
deriving DecidableEq, Repr

namespace BinaryOp

/-- How a binary operator is written. -/
def symbol : BinaryOp → String
  | or => "||"
  | and => "&&"
  | bitOr => "|"
  | bitXor => "^"
  | bitAnd => "&"
  | equal => "=="
  | notEqual => "!="
  | is => "is"
  | less => "<"
  | lessEqual => "<="
  | greater => ">"
  | greaterEqual => ">="
  | shl => "<<"
  | shr => ">>"
  | add => "+"
  | subtract => "-"
  | multiply => "*"
  | divide => "/"
  | modulo => "%"
  | power => "**"

/-- How strongly an operator binds, from one for the loosest to eleven. -/
def precedence : BinaryOp → Nat
  | or => 1
  | and => 2
  | bitOr => 3
  | bitXor => 4
  | bitAnd => 5
  | equal | notEqual | is => 6
  | less | lessEqual | greater | greaterEqual => 7
  | shl | shr => 8
  | add | subtract => 9
  | multiply | divide | modulo => 10
  | power => 11

/-- Whether a chain of the operator groups to the right; only powers do. -/
def isRightAssociative : BinaryOp → Bool
  | power => true
  | _ => false

end BinaryOp

/-- Operators that store a value. -/
inductive AssignOp
  | assign
  | add
  | subtract
  | multiply
  | divide
  | modulo
  | bitAnd
  | bitOr
  | bitXor
  | shl
  | shr
  | power
deriving DecidableEq, Repr

/-- How an assignment operator is written. -/
def AssignOp.symbol : AssignOp → String
  | assign => "="
  | add => "+="
  | subtract => "-="
  | multiply => "*="
  | divide => "/="
  | modulo => "%="
  | bitAnd => "&="
  | bitOr => "|="
  | bitXor => "^="
  | shl => "<<="
  | shr => ">>="
  | power => "**="

end FluxFront
