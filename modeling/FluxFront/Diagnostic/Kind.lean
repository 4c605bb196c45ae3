/-!
# Kinds of diagnostics

What can go wrong with a source text, and the wording, code and category of each kind.
-/

namespace FluxFront.Diagnostic

/-- The class of a failure, by how the reader of the text goes on behind it. -/
inductive Category
  /-- Malformed characters or literals. -/
  | lexical
  /-- A token is missing and stood in for. -/
  | expectedToken
  /-- Well-formed tokens where the grammar does not allow them. -/
  | structural
  /-- A region of the text was given up. -/
  | catastrophic
  /-- A failure outside of the text. -/
  | driver
deriving DecidableEq, Repr

/-- What a diagnostic is about. -/
inductive Kind
  | invalidCharacter
  | unterminatedString
  | unterminatedComment
  | unterminatedAsm
  | invalidNumber
  | invalidEscape
  | expectedToken
  | unexpectedEof
  | expectedExpression
  | expectedType
  | expectedDeclaration
  | expectedStatement
  | invalidAssignmentTarget
  | missingDefaultCase
  | duplicateDefaultCase
  | functionInClass
  | misplacedDeclaration
  | invalidExclusion
  | misplacedJump
  | topLevelStatement
  | interpolationMismatch
  | nestingTooDeep
  | internalError
  | ioError
  | serializationError
deriving DecidableEq, Repr

namespace Kind

/-- The kind in words. -/
def phrase : Kind → String
  | invalidCharacter => "invalid character"
  | unterminatedString => "unterminated string"
  | unterminatedComment => "unterminated comment"
  | unterminatedAsm => "unterminated asm block"
  | invalidNumber => "invalid number"
  | invalidEscape => "invalid escape sequence"
  | expectedToken => "expected token"
  | unexpectedEof => "unexpected end of file"
  | expectedExpression => "expected expression"
  | expectedType => "expected type"
  | expectedDeclaration => "expected declaration"
  | expectedStatement => "expected statement"
  | invalidAssignmentTarget => "invalid assignment target"
  | missingDefaultCase => "missing default case"
  | duplicateDefaultCase => "duplicate default case"
  | functionInClass => "function in class body"
  | misplacedDeclaration => "misplaced declaration"
  | invalidExclusion => "invalid exclusion"
  | misplacedJump => "misplaced jump"
  | topLevelStatement => "top-level statement"
  | interpolationMismatch => "interpolation mismatch"
  | nestingTooDeep => "nesting too deep"
  | internalError => "internal error"
  | ioError => "I/O error"
  | serializationError => "serialization error"

/-- The stable code of a kind. -/
def code : Kind → String
  | invalidCharacter => "E0001"
  | unterminatedString => "E0002"
  | unterminatedComment => "E0003"
  | unterminatedAsm => "E0004"
  | invalidNumber => "E0005"
  | invalidEscape => "E0006"
  | expectedToken => "E0101"
  | unexpectedEof => "E0102"
  | expectedExpression => "E0103"
  | expectedType => "E0104"
  | expectedDeclaration => "E0105"
  | expectedStatement => "E0106"
  | invalidAssignmentTarget => "E0201"
  | missingDefaultCase => "E0202"
  | duplicateDefaultCase => "E0203"
  | functionInClass => "E0204"
  | misplacedDeclaration => "E0205"
  | invalidExclusion => "E0206"
  | misplacedJump => "E0207"
  | topLevelStatement => "E0208"
  | interpolationMismatch => "E0209"
  | nestingTooDeep => "E0301"
  | internalError => "E0900"
  | ioError => "E0901"
  | serializationError => "E0902"

/-- The category of a kind. -/
def category : Kind → Category
  | invalidCharacter | unterminatedString | unterminatedComment | unterminatedAsm
  | invalidNumber | invalidEscape => .lexical
  | expectedToken | unexpectedEof | expectedExpression | expectedType | expectedDeclaration
  | expectedStatement => .expectedToken
  | invalidAssignmentTarget | missingDefaultCase | duplicateDefaultCase | functionInClass
  | misplacedDeclaration | invalidExclusion | misplacedJump | topLevelStatement
  | interpolationMismatch => .structural
  | nestingTooDeep => .catastrophic
  | internalError | ioError | serializationError => .driver

/-- All kinds, in the order of their codes. -/
def all : List Kind :=
  [invalidCharacter, unterminatedString, unterminatedComment, unterminatedAsm, invalidNumber,
   invalidEscape, expectedToken, unexpectedEof, expectedExpression, expectedType,
   expectedDeclaration, expectedStatement, invalidAssignmentTarget, missingDefaultCase,
   duplicateDefaultCase, functionInClass, misplacedDeclaration, invalidExclusion, misplacedJump,
   topLevelStatement, interpolationMismatch, nestingTooDeep, internalError, ioError,
   serializationError]

/-- The list of all kinds leaves none out. -/
theorem mem_all (k : Kind) : k ∈ all := by cases k <;> decide

end Kind

end FluxFront.Diagnostic
