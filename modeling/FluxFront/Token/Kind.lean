/-!
# Token kinds

The kinds of tokens of the language: keywords, names, literals, operators and delimiters, and the
end of the text.  Most kinds have one fixed spelling, `Kind.symbol`, which messages show.

* **Keywords** are looked up in a table of their own, `keywordTable`.
* **Operators** are told by their first character; each further one is taken if it makes a longer
  operator.
-/

namespace FluxFront.Token

/-- What a token is. -/
inductive Kind
  | kwNamespace
  | kwClass
  | kwObject
  | kwStruct
  | kwDef
  | kwConst
  | kwVolatile
  | kwImport
  | kwUsing
  | kwAs
  | kwOperator
  | kwTemplate
  | kwEnum
  | kwType
  | kwData
  | kwSigned
  | kwUnsigned
  | kwAsm
  | kwVoid
  | kwAuto
  | kwIf
  | kwElse
  | kwDo
  | kwWhile
  | kwFor
  | kwIn
  | kwReturn
  | kwBreak
  | kwContinue
  | kwThrow
  | kwTry
  | kwCatch
  | kwSwitch
  | kwCase
  | kwDefault
  | kwAssert
  | kwLock
  | kwPreLock
  | kwPostLock
  | kwSizeOf
  | kwTypeOf
  | kwOp
  | kwIs
  | kwTrue
  | kwFalse
  | identifier
  | intLiteral
  | floatLiteral
  | charLiteral
  | stringLiteral
  | bitLiteral
  | interpolatedString
  | asmBlock
  | plus
  | minus
  | star
  | starStar
  | slash
  | percent
  | plusPlus
  | minusMinus
  | equal
  | plusEqual
  | minusEqual
  | starEqual
  | starStarEqual
  | slashEqual
  | percentEqual
  | ampEqual
  | pipeEqual
  | caretEqual
  | shlEqual
  | shrEqual
  | equalEqual
  | notEqual
  | less
  | lessEqual
  | greater
  | greaterEqual
  | shl
  | shr
  | ampAmp
  | pipePipe
  | amp
  | pipe
  | caret
  | tilde
  | bang
  | atSign
  | question
  | arrow
  | leftParen
  | rightParen
  | leftBrace
  | rightBrace
  | leftBracket
  | rightBracket
  | semicolon
  | colon
  | comma
  | dot
  | eof
deriving DecidableEq, Repr, Inhabited

namespace Kind

/-- The spelling of a kind that has only one. -/
def symbol : Kind → Option String
  | kwNamespace => some "namespace"
  | kwClass => some "class"
  | kwObject => some "object"
  | kwStruct => some "struct"
  | kwDef => some "def"
  | kwConst => some "const"
  | kwVolatile => some "volatile"
  | kwImport => some "import"
  | kwUsing => some "using"
  | kwAs => some "as"
  | kwOperator => some "operator"
  | kwTemplate => some "template"
  | kwEnum => some "enum"
  | kwType => some "type"
  | kwData => some "data"
  | kwSigned => some "signed"
  | kwUnsigned => some "unsigned"
  | kwAsm => some "asm"
  | kwVoid => some "void"
  | kwAuto => some "auto"
  | kwIf => some "if"
  | kwElse => some "else"
  | kwDo => some "do"
  | kwWhile => some "while"
  | kwFor => some "for"
  | kwIn => some "in"
  | kwReturn => some "return"
  | kwBreak => some "break"
  | kwContinue => some "continue"
  | kwThrow => some "throw"
  | kwTry => some "try"
  | kwCatch => some "catch"
  | kwSwitch => some "switch"
  | kwCase => some "case"
  | kwDefault => some "default"
  | kwAssert => some "assert"
  | kwLock => some "lock"
  | kwPreLock => some "prelock"
  | kwPostLock => some "postlock"
  | kwSizeOf => some "sizeof"
  | kwTypeOf => some "typeof"
  | kwOp => some "op"
  | kwIs => some "is"
  | kwTrue => some "true"
  | kwFalse => some "false"
  | plus => some "+"
  | minus => some "-"
  | star => some "*"
  | starStar => some "**"
  | slash => some "/"
  | percent => some "%"
  | plusPlus => some "++"
  | minusMinus => some "--"
  | equal => some "="
  | plusEqual => some "+="
  | minusEqual => some "-="
  | starEqual => some "*="
  | starStarEqual => some "**="
  | slashEqual => some "/="
  | percentEqual => some "%="
  | ampEqual => some "&="
  | pipeEqual => some "|="
  | caretEqual => some "^="
  | shlEqual => some "<<="
  | shrEqual => some ">>="
  | equalEqual => some "=="
  | notEqual => some "!="
  | less => some "<"
  | lessEqual => some "<="
  | greater => some ">"
  | greaterEqual => some ">="
  | shl => some "<<"
  | shr => some ">>"
  | ampAmp => some "&&"
  | pipePipe => some "||"
  | amp => some "&"
  | pipe => some "|"
  | caret => some "^"
  | tilde => some "~"
  | bang => some "!"
  | atSign => some "@"
  | question => some "?"
  | arrow => some "->"
  | leftParen => some "("
  | rightParen => some ")"
  | leftBrace => some "\x7b"
  | rightBrace => some "\x7d"
  | leftBracket => some "["
  | rightBracket => some "]"
  | semicolon => some ";"
  | colon => some ":"
  | comma => some ","
  | dot => some "."
  | identifier | intLiteral | floatLiteral | charLiteral | stringLiteral
  | bitLiteral | interpolatedString | asmBlock | eof => none

/-- What a kind without a fixed spelling is called. -/
def noun : Kind → String
  | identifier => "identifier"
  | intLiteral => "integer literal"
  | floatLiteral => "float literal"
  | charLiteral => "character literal"
  | stringLiteral => "string literal"
  | bitLiteral => "bit literal"
  | interpolatedString => "interpolated string"
  | asmBlock => "asm block"
  | _ => "end of file"

/-- The kind as messages call it: its spelling between quotes, or its noun. -/
def describe (k : Kind) : String :=
  match k.symbol with
  | some text => "'" ++ text ++ "'"
  | none => k.noun

/-! ## All kinds -/

/-- The kinds that are spelled like a name. -/
def keywords : List Kind :=
  [kwNamespace, kwClass, kwObject, kwStruct, kwDef, kwConst, kwVolatile, kwImport, kwUsing, kwAs,
   kwOperator, kwTemplate, kwEnum, kwType, kwData, kwSigned, kwUnsigned, kwAsm, kwVoid, kwAuto,
   kwIf, kwElse, kwDo, kwWhile, kwFor, kwIn, kwReturn, kwBreak, kwContinue, kwThrow, kwTry,
   kwCatch, kwSwitch, kwCase, kwDefault, kwAssert, kwLock, kwPreLock, kwPostLock, kwSizeOf,
   kwTypeOf, kwOp, kwIs, kwTrue, kwFalse]

/-- The operators and delimiters, longest spellings first. -/
def operators : List Kind :=
  [starStarEqual, shlEqual, shrEqual, starStar, plusPlus, minusMinus, shl, shr, ampAmp, pipePipe,
   plusEqual, minusEqual, starEqual, slashEqual, percentEqual, ampEqual, pipeEqual, caretEqual,
   equalEqual, notEqual, lessEqual, greaterEqual, arrow, plus, minus, star, slash, percent,
   equal, less, greater, amp, pipe, caret, tilde, bang, atSign, question, leftParen, rightParen,
   leftBrace, rightBrace, leftBracket, rightBracket, semicolon, colon, comma, dot]

/-- The kinds without a fixed spelling, and the end of the text. -/
def classes : List Kind :=
  [identifier, intLiteral, floatLiteral, charLiteral, stringLiteral, bitLiteral,
   interpolatedString, asmBlock, eof]

/-- All kinds. -/
def all : List Kind := keywords ++ classes ++ operators

/-- The list of all kinds leaves none out. -/
theorem mem_all (k : Kind) : k ∈ all := by cases k <;> decide

/-! ## Keywords -/

/-- The spellings that are no names, and the keywords they are. -/
def keywordTable : List (String × Kind) :=
  [("namespace", kwNamespace), ("class", kwClass), ("object", kwObject), ("struct", kwStruct),
   ("def", kwDef), ("const", kwConst), ("volatile", kwVolatile), ("import", kwImport),
   ("using", kwUsing), ("as", kwAs), ("operator", kwOperator), ("template", kwTemplate),
   ("enum", kwEnum), ("type", kwType), ("data", kwData), ("signed", kwSigned),
   ("unsigned", kwUnsigned), ("asm", kwAsm), ("void", kwVoid), ("auto", kwAuto), ("if", kwIf),
   ("else", kwElse), ("do", kwDo), ("while", kwWhile), ("for", kwFor), ("in", kwIn),
   ("return", kwReturn), ("break", kwBreak), ("continue", kwContinue), ("throw", kwThrow),
   ("try", kwTry), ("catch", kwCatch), ("switch", kwSwitch), ("case", kwCase),
   ("default", kwDefault), ("assert", kwAssert), ("lock", kwLock), ("prelock", kwPreLock),
   ("postlock", kwPostLock), ("sizeof", kwSizeOf), ("typeof", kwTypeOf), ("op", kwOp),
   ("is", kwIs), ("true", kwTrue), ("false", kwFalse)]

/-- The keyword with a spelling. -/
def ofKeyword? (text : String) : Option Kind := keywordTable.lookup text

/-- Whether a kind is a keyword: the table has it at its own spelling. -/
def isKeyword (k : Kind) : Bool := ofKeyword? (k.symbol.getD "") == some k

/-! ## Operators and delimiters -/

/-- The characters of a token taken so far and the text ahead. -/
abbrev Taking := StateM (List Char × List Char)

/-- Takes the next character if it is the given one, and tells whether it was. -/
def takeChar (c : Char) : Taking Bool := fun (taken, text) =>
  match text with
  | d :: rest => if d = c then (true, taken ++ [d], rest) else (false, taken, d :: rest)
  | [] => (false, taken, [])

/-- The operator or delimiter with a first character, as long as the text ahead makes it. -/
def operatorFrom (first : Char) : Taking (Option Kind) := do
  match first with
  | '(' => return leftParen
  | ')' => return rightParen
  | '{' => return leftBrace
  | '}' => return rightBrace
  | '[' => return leftBracket
  | ']' => return rightBracket
  | ';' => return semicolon
  | ':' => return colon
  | ',' => return comma
  | '.' => return dot
  | '~' => return tilde
  | '@' => return atSign
  | '?' => return question
  | '+' =>
    if ← takeChar '+' then return plusPlus
    else if ← takeChar '=' then return plusEqual
    else return plus
  | '-' =>
    if ← takeChar '-' then return minusMinus
    else if ← takeChar '=' then return minusEqual
    else if ← takeChar '>' then return arrow
    else return minus
  | '*' =>
    if ← takeChar '*' then
      if ← takeChar '=' then return starStarEqual else return starStar
    else if ← takeChar '=' then return starEqual
    else return star
  | '/' => if ← takeChar '=' then return slashEqual else return slash
  | '%' => if ← takeChar '=' then return percentEqual else return percent
  | '=' => if ← takeChar '=' then return equalEqual else return equal
  | '!' => if ← takeChar '=' then return notEqual else return bang
  | '<' =>
    if ← takeChar '<' then
      if ← takeChar '=' then return shlEqual else return shl
    else if ← takeChar '=' then return lessEqual
    else return less
  | '>' =>
    if ← takeChar '>' then
      if ← takeChar '=' then return shrEqual else return shr
    else if ← takeChar '=' then return greaterEqual
    else return greater
  | '&' =>
    if ← takeChar '&' then return ampAmp
    else if ← takeChar '=' then return ampEqual
    else return amp
  | '|' =>
    if ← takeChar '|' then return pipePipe
    else if ← takeChar '=' then return pipeEqual
    else return pipe
  | '^' => if ← takeChar '=' then return caretEqual else return caret
  | _ => return none

/-- The operator that a text starts with, the characters taken for it, and the text behind. -/
def matchOperator? : List Char → Option (Kind × List Char × List Char)
  | [] => none
  | c :: text =>
    let (kind, taken, rest) := operatorFrom c ([c], text)
    kind.map fun k => (k, taken, rest)

end Kind

end FluxFront.Token
