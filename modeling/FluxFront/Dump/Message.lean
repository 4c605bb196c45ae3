import FluxFront.Diagnostic.Collection
import FluxFront.Dump.Value
import FluxFront.Token.Basic

/-!
# Dumps of tokens and diagnostics

The name of every kind, and the records of tokens, diagnostics and collections.
-/

namespace FluxFront

/-- The name of a token kind. -/
def Token.Kind.name : Token.Kind → String
  | .kwNamespace => "Namespace"
  | .kwClass => "Class"
  | .kwObject => "Object"
  | .kwStruct => "Struct"
  | .kwDef => "Def"
  | .kwConst => "Const"
  | .kwVolatile => "Volatile"
  | .kwImport => "Import"
  | .kwUsing => "Using"
  | .kwAs => "As"
  | .kwOperator => "Operator"
  | .kwTemplate => "Template"
  | .kwEnum => "Enum"
  | .kwType => "Type"
  | .kwData => "Data"
  | .kwSigned => "Signed"
  | .kwUnsigned => "Unsigned"
  | .kwAsm => "Asm"
  | .kwVoid => "Void"
  | .kwAuto => "Auto"
  | .kwIf => "If"
  | .kwElse => "Else"
  | .kwDo => "Do"
  | .kwWhile => "While"
  | .kwFor => "For"
  | .kwIn => "In"
  | .kwReturn => "Return"
  | .kwBreak => "Break"
  | .kwContinue => "Continue"
  | .kwThrow => "Throw"
  | .kwTry => "Try"
  | .kwCatch => "Catch"
  | .kwSwitch => "Switch"
  | .kwCase => "Case"
  | .kwDefault => "Default"
  | .kwAssert => "Assert"
  | .kwLock => "Lock"
  | .kwPreLock => "PreLock"
  | .kwPostLock => "PostLock"
  | .kwSizeOf => "SizeOf"
  | .kwTypeOf => "TypeOf"
  | .kwOp => "Op"
  | .kwIs => "Is"
  | .kwTrue => "True"
  | .kwFalse => "False"
  | .identifier => "Identifier"
  | .intLiteral => "IntLiteral"
  | .floatLiteral => "FloatLiteral"
  | .charLiteral => "CharLiteral"
  | .stringLiteral => "StringLiteral"
  | .bitLiteral => "BitLiteral"
  | .interpolatedString => "InterpolatedString"
  | .asmBlock => "AsmBlock"
  | .plus => "Plus"
  | .minus => "Minus"
  | .star => "Star"
  | .starStar => "StarStar"
  | .slash => "Slash"
  | .percent => "Percent"
  | .plusPlus => "PlusPlus"
  | .minusMinus => "MinusMinus"
  | .equal => "Equal"
  | .plusEqual => "PlusEqual"
  | .minusEqual => "MinusEqual"
  | .starEqual => "StarEqual"
  | .starStarEqual => "StarStarEqual"
  | .slashEqual => "SlashEqual"
  | .percentEqual => "PercentEqual"
  | .ampEqual => "AmpEqual"
  | .pipeEqual => "PipeEqual"
  | .caretEqual => "CaretEqual"
  | .shlEqual => "ShlEqual"
  | .shrEqual => "ShrEqual"
  | .equalEqual => "EqualEqual"
  | .notEqual => "NotEqual"
  | .less => "Less"
  | .lessEqual => "LessEqual"
  | .greater => "Greater"
  | .greaterEqual => "GreaterEqual"
  | .shl => "Shl"
  | .shr => "Shr"
  | .ampAmp => "AmpAmp"
  | .pipePipe => "PipePipe"
  | .amp => "Amp"
  | .pipe => "Pipe"
  | .caret => "Caret"
  | .tilde => "Tilde"
  | .bang => "Bang"
  | .atSign => "At"
  | .question => "Question"
  | .arrow => "Arrow"
  | .leftParen => "LeftParen"
  | .rightParen => "RightParen"
  | .leftBrace => "LeftBrace"
  | .rightBrace => "RightBrace"
  | .leftBracket => "LeftBracket"
  | .rightBracket => "RightBracket"
  | .semicolon => "Semicolon"
  | .colon => "Colon"
  | .comma => "Comma"
  | .dot => "Dot"
  | .eof => "Eof"

/-- The token kind with a name. -/
def Token.Kind.ofName? (name : String) : Option Token.Kind :=
  Token.Kind.all.find? fun k => k.name == name

/-- The dump of the decoded value of a literal token. -/
def Token.Value.dump : Token.Value → Dump
  | .int value => .variant "Int" (.number value.toNat)
  | .float value => .variant "Float" (.float value)
  | .char value => .variant "Char" (.text value.toString)
  | .string value => .variant "String" (.text value)
  | .bits digits => .variant "Bits" (.text digits)
  | .parts texts => .variant "Parts" (.texts texts)

/-- The dump of a token. -/
def Token.dump (t : Token) : Dump :=
  .record [("kind", .text t.kind.name), ("lexeme", .text t.lexeme), ("span", .span t.span),
    ("literal", .ofOption Token.Value.dump t.literal)]

namespace Diagnostic

/-- The name of a category. -/
def Category.name : Category → String
  | lexical => "Lexical"
  | expectedToken => "ExpectedToken"
  | structural => "Structural"
  | catastrophic => "Catastrophic"
  | driver => "Driver"

/-- The name of a kind of diagnostics. -/
def Kind.name : Kind → String
  | invalidCharacter => "InvalidCharacter"
  | unterminatedString => "UnterminatedString"
  | unterminatedComment => "UnterminatedComment"
  | unterminatedAsm => "UnterminatedAsm"
  | invalidNumber => "InvalidNumber"
  | invalidEscape => "InvalidEscape"
  | expectedToken => "ExpectedToken"
  | unexpectedEof => "UnexpectedEof"
  | expectedExpression => "ExpectedExpression"
  | expectedType => "ExpectedType"
  | expectedDeclaration => "ExpectedDeclaration"
  | expectedStatement => "ExpectedStatement"
  | invalidAssignmentTarget => "InvalidAssignmentTarget"
  | missingDefaultCase => "MissingDefaultCase"
  | duplicateDefaultCase => "DuplicateDefaultCase"
  | functionInClass => "FunctionInClass"
  | misplacedDeclaration => "MisplacedDeclaration"
  | invalidExclusion => "InvalidExclusion"
  | misplacedJump => "MisplacedJump"
  | topLevelStatement => "TopLevelStatement"
  | interpolationMismatch => "InterpolationMismatch"
  | nestingTooDeep => "NestingTooDeep"
  | internalError => "InternalError"
  | ioError => "IoError"
  | serializationError => "SerializationError"

/-- The kind of diagnostics with a name. -/
def Kind.ofName? (name : String) : Option Kind := Kind.all.find? fun k => k.name == name

/-- The dump of a diagnostic. -/
def dump (d : Diagnostic) : Dump :=
  .record [("kind", .text d.kind.name), ("message", .text d.message),
    ("context", .record [("span", .ofOption .span d.span), ("note", .ofOption .text d.note),
      ("help", .ofOption .text d.help)])]

/-- The dump of a collection; its limit is not part of it. -/
def Collection.dump (c : Collection) : Dump :=
  .record [("errors", .ofList Diagnostic.dump c.errors),
    ("warnings", .ofList Diagnostic.dump c.warnings)]

end Diagnostic

end FluxFront
