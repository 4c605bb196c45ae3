import FluxFront.Decimal.Reading
import FluxFront.Diagnostic.Basic
import FluxFront.Text.Numeral
import FluxFront.Text.Slots
import FluxFront.Text.Trim
import FluxFront.Token.Basic

/-!
# Scanning tokens

From characters to tokens.

* **Gaps**: between tokens stand white space, `//` comments up to the end of the line, `/* */`
  comments, and characters that start no token; each of the latter is reported.  `skipGap` is one
  structural pass over the characters.
* **Tokens**: `readToken` takes the longest operator, the longest name or number, or a literal up to
  its closing quote.  Behind the keyword `asm` an opening brace starts a block of raw text up to the
  matching brace.
* **Crux**: a reading only ever splits the text, `lexeme ++ rest`, so the location behind a token is
  the location in front of it moved over the lexeme.
-/

namespace FluxFront.Token

/-! ## Gaps -/

/-- What a gap between tokens is made of at the current character. -/
inductive GapMode
  | blank
  | lineComment
  /-- A block comment, with the place where it was opened. -/
  | blockComment (opened : Location)

/-- The state behind a gap. -/
structure Gap where
  rest : List Char
  here : Location
  /-- Whether the keyword `asm` is still the last thing read. -/
  afterAsm : Bool
  errors : List Diagnostic

/-- The characters that an operator or a delimiter starts with. -/
def operatorStarts : List Char :=
  ['(', ')', '{', '}', '[', ']', ';', ':', ',', '.', '~', '@', '?', '+', '-', '*', '/', '%', '=',
   '!', '<', '>', '&', '|', '^']

/-- Whether some token starts with the character. -/
def startsToken (c : Char) : Bool :=
  operatorStarts.contains c || c == '"' || c == '\'' || c.isDigit || Text.startsName c

/-- Skips to the next character that starts a token. -/
def skipGap : GapMode → Location → Bool → List Char → Gap
  | .blockComment opened, here, afterAsm, [] =>
    ⟨[], here, afterAsm,
      [.located .unterminatedComment "Unterminated block comment" ⟨opened, here⟩]⟩
  | _, here, afterAsm, [] => ⟨[], here, afterAsm, []⟩
  | .lineComment, here, afterAsm, c :: rest =>
    skipGap (if c = '\n' then .blank else .lineComment) (here.next c) afterAsm rest
  | .blockComment _, here, afterAsm, '*' :: '/' :: rest =>
    skipGap .blank ((here.next '*').next '/') afterAsm rest
  | .blockComment opened, here, afterAsm, c :: rest =>
    skipGap (.blockComment opened) (here.next c) afterAsm rest
  | .blank, here, afterAsm, '/' :: '/' :: rest =>
    skipGap .lineComment ((here.next '/').next '/') afterAsm rest
  | .blank, here, afterAsm, '/' :: '*' :: rest =>
    skipGap (.blockComment here) ((here.next '/').next '*') afterAsm rest
  | .blank, here, afterAsm, c :: rest =>
    if Text.isBlank c then skipGap .blank (here.next c) afterAsm rest
    else if startsToken c then ⟨c :: rest, here, afterAsm, []⟩
    else
      let gap := skipGap .blank (here.next c) false rest
      let error : Diagnostic :=
        .located .invalidCharacter ("Unexpected character '" ++ c.toString ++ "'")
          ⟨here, here.next c⟩
      { gap with errors := error :: gap.errors }

/-! ## Readings -/

/-- One token read off the front of a text: the characters taken and the ones left. -/
structure Reading where
  kind : Kind
  lexeme : List Char
  rest : List Char
  literal : Option Value := none
  errors : List Diagnostic := []

/-- The span of a reading that starts at a place. -/
def Reading.span (r : Reading) (here : Location) : Span := ⟨here, here.after r.lexeme⟩

/-- The character that an escape sequence stands for; an unknown one stands for itself. -/
def unescape : Char → Char
  | 'n' => '\n'
  | 't' => '\t'
  | 'r' => '\r'
  | '0' => '\x00'
  | c => c

/-- Whether a character behind a backslash makes an escape sequence of the language. -/
def isEscape (c : Char) : Bool := ['n', 't', 'r', '0', '\\', '\'', '"'].contains c

/-- The complaint about an unknown escape sequence whose character stands at a place. -/
def escapeErrors (here : Location) (c : Char) : List Diagnostic :=
  if isEscape c then []
  else [.located .invalidEscape ("Unknown escape sequence '\\" ++ c.toString ++ "'")
    ⟨here, here.next c⟩]

/-- The inside of a quoted text up to and including its closing quote. -/
structure Quoted where
  taken : List Char
  value : List Char
  rest : List Char
  closed : Bool
  errors : List Diagnostic

/-- Reads a quoted text from behind its opening quote. -/
def readQuoted (quote : Char) (here : Location) : List Char → Quoted
  | [] => ⟨[], [], [], false, []⟩
  | c :: text =>
    if c = quote then ⟨[c], [], text, true, []⟩
    else if c = '\\' then
      match text with
      | [] => ⟨[c], [], [], false, []⟩
      | e :: behind =>
        let q := readQuoted quote ((here.next c).next e) behind
        ⟨c :: e :: q.taken, unescape e :: q.value, q.rest, q.closed,
          escapeErrors (here.next c) e ++ q.errors⟩
    else
      let q := readQuoted quote (here.next c) text
      ⟨c :: q.taken, c :: q.value, q.rest, q.closed, q.errors⟩

/-- A string literal, given the characters of its opening and the text behind them. -/
def readString (kind : Kind) (decode : List Char → Value) (opening : List Char) (here : Location)
    (text : List Char) : Reading :=
  let q := readQuoted '"' (here.after opening) text
  let lexeme := opening ++ q.taken
  let unterminated : List Diagnostic :=
    if q.closed then []
    else [.located .unterminatedString "Unterminated string literal" ⟨here, here.after lexeme⟩]
  ⟨kind, lexeme, q.rest, some (decode q.value), q.errors ++ unterminated⟩

/-- The value of a plain string literal. -/
def stringValue (text : List Char) : Value := .string (String.ofList text)

/-- The parts of an interpolated string literal. -/
def partsValue (text : List Char) : Value := .parts ((Text.splitSlots text).map String.ofList)

/-- The character inside a character literal: the characters taken, the ones left, its value if
there is one, and complaints about it. -/
def readCharBody (here : Location) : List Char → List Char × List Char × Option Char × List Diagnostic
  | [] => ([], [], none, [])
  | c :: text =>
    if c = '\\' then
      match text with
      | [] => ([c], [], none, [])
      | e :: behind => ([c, e], behind, some (unescape e), escapeErrors (here.next c) e)
    else if c = '\'' then ([c], text, none, [])
    else ([c], text, some c, [])

/-- A character literal, from behind its opening quote. -/
def readChar (here : Location) (text : List Char) : Reading :=
  let (taken, behind, value, errors) := readCharBody (here.next '\'') text
  let (close, rest) := match behind with
    | '\'' :: rest => (['\''], rest)
    | rest => ([], rest)
  let lexeme := '\'' :: (taken ++ close)
  match value, close with
  | some c, _ :: _ => ⟨.charLiteral, lexeme, rest, some (.char c), errors⟩
  | _, _ =>
    ⟨.charLiteral, lexeme, rest, some (.char '\x00'),
      errors ++ [.located .invalidCharacter "Malformed character literal" ⟨here, here.after lexeme⟩]⟩

/-! ## Numbers -/

/-- Whether a character may stand among the digits of a decimal number. -/
def isDigitOrMark (c : Char) : Bool := c.isDigit || c == '_'

/-- Whether a character may stand behind a radix mark. -/
def isAlphanumOrMark (c : Char) : Bool := c.isAlphanum || c == '_'

/-- Digits without the separators between them. -/
def plainDigits (text : List Char) : List Char := text.filter (· != '_')

/-- The radix that a character behind a leading zero announces. -/
def radixOf? : Char → Option Nat
  | 'x' | 'X' => some 16
  | 'o' | 'O' => some 8
  | 'b' | 'B' => some 2
  | _ => none

/-- A number token, with a complaint if its text has no value. -/
def numberReading (kind : Kind) (here : Location) (lexeme rest : List Char) (value : Value)
    (valid : Bool) : Reading :=
  let errors : List Diagnostic :=
    if valid then []
    else [.located .invalidNumber ("Invalid number literal '" ++ String.ofList lexeme ++ "'")
      ⟨here, here.after lexeme⟩]
  ⟨kind, lexeme, rest, some value, errors⟩

/-- A number behind a radix mark: bits keep their digits, other radices give a word. -/
def readRadix (radix : Nat) (mark : Char) (here : Location) (text : List Char) : Reading :=
  let body := text.takeWhile isAlphanumOrMark
  let rest := text.dropWhile isAlphanumOrMark
  let lexeme := '0' :: mark :: body
  let digits := plainDigits body
  if radix = 2 then
    numberReading .bitLiteral here lexeme rest (.bits (String.ofList digits))
      (Decimal.natural? 2 digits).isSome
  else
    let value := Decimal.word? radix digits
    numberReading .intLiteral here lexeme rest (.int (value.getD 0)) value.isSome

/-- The fraction of a number: a point, if a digit follows it, and the digits behind. -/
def takeFraction : List Char → List Char × List Char
  | '.' :: d :: text =>
    if d.isDigit then
      ('.' :: (d :: text).takeWhile isDigitOrMark, (d :: text).dropWhile isDigitOrMark)
    else ([], '.' :: d :: text)
  | text => ([], text)

/-- The exponent of a number: a mark, an optional sign and digits, if there is a digit. -/
def takeExponent : List Char → List Char × List Char
  | mark :: sign :: text =>
    if mark = 'e' ∨ mark = 'E' then
      if sign.isDigit then
        (mark :: (sign :: text).takeWhile Char.isDigit, (sign :: text).dropWhile Char.isDigit)
      else if (sign = '+' ∨ sign = '-') ∧ (text.head?.any Char.isDigit) then
        (mark :: sign :: text.takeWhile Char.isDigit, text.dropWhile Char.isDigit)
      else ([], mark :: sign :: text)
    else ([], mark :: sign :: text)
  | text => ([], text)

/-- A decimal number: a floating-point one if it has a fraction or an exponent. -/
def readDecimal (here : Location) (text : List Char) : Reading :=
  let whole := text.takeWhile isDigitOrMark
  let (fraction, behind) := takeFraction (text.dropWhile isDigitOrMark)
  let (exponent, rest) := takeExponent behind
  let lexeme := whole ++ fraction ++ exponent
  let digits := plainDigits lexeme
  if fraction.isEmpty && exponent.isEmpty then
    let value := Decimal.word? 10 digits
    numberReading .intLiteral here lexeme rest (.int (value.getD 0)) value.isSome
  else
    let value := Decimal.number? digits
    numberReading .floatLiteral here lexeme rest (.float (value.getD .zero)) value.isSome

/-- A number, whose text starts with a digit. -/
def readNumber (here : Location) (text : List Char) : Reading :=
  match text with
  | '0' :: mark :: behind =>
    match radixOf? mark with
    | some radix => readRadix radix mark here behind
    | none => readDecimal here text
  | _ => readDecimal here text

/-! ## Names and raw text -/

/-- A name or a keyword. -/
def readName (c : Char) (text : List Char) : Reading :=
  let lexeme := c :: text.takeWhile Text.continuesName
  { kind := (Kind.ofKeyword? (String.ofList lexeme)).getD .identifier
    lexeme
    rest := text.dropWhile Text.continuesName }

/-- Raw text up to the brace that closes `depth + 1` open ones, and the text from that brace on. -/
def takeRaw (depth : Nat) : List Char → List Char × List Char
  | [] => ([], [])
  | c :: text =>
    if c = '}' then
      match depth with
      | 0 => ([], c :: text)
      | outer + 1 => ((takeRaw outer text).map (c :: ·) id)
    else ((takeRaw (if c = '{' then depth + 1 else depth) text).map (c :: ·) id)

/-- A block of raw text, from behind its opening brace. -/
def readRaw (here : Location) (text : List Char) : Reading :=
  let (raw, behind) := takeRaw 0 text
  let value : Value := .string (String.ofList (Text.trimBlanks raw))
  match behind with
  | [] =>
    let lexeme := '{' :: raw
    ⟨.asmBlock, lexeme, [], some value,
      [.located .unterminatedAsm "Unterminated asm block" ⟨here, here.after lexeme⟩]⟩
  | close :: rest => ⟨.asmBlock, '{' :: (raw ++ [close]), rest, some value, []⟩

/-- The token at the front of a text whose first character starts one. -/
def readToken (here : Location) (c : Char) (text : List Char) : Reading :=
  match Kind.matchOperator? (c :: text) with
  | some (kind, lexeme, rest) => { kind, lexeme, rest }
  | none =>
    if c = '"' then readString .stringLiteral stringValue ['"'] here text
    else if c = '\'' then readChar here text
    else if c.isDigit then readNumber here (c :: text)
    else
      match c, text with
      | 'i', '"' :: behind => readString .interpolatedString partsValue ['i', '"'] here behind
      | _, _ => readName c text

/-! ## The scanner -/

/-- What is left of a text, where it stands, and whether `asm` was read last. -/
structure Scanner where
  rest : List Char
  here : Location
  afterAsm : Bool

/-- A scanner in front of a text. -/
def Scanner.ofString (source : String) : Scanner := ⟨source.toList, .start, false⟩

/-- The next token, the complaints on the way to its end, and the scanner behind it.  At the end of
the text the end is the next token again and again. -/
def Scanner.next (s : Scanner) : Token × List Diagnostic × Scanner :=
  let gap := skipGap .blank s.here s.afterAsm s.rest
  match gap.rest with
  | [] => (endAt gap.here, gap.errors, ⟨[], gap.here, gap.afterAsm⟩)
  | c :: text =>
    let r := if gap.afterAsm && c == '{' then readRaw gap.here text else readToken gap.here c text
    ({ kind := r.kind, lexeme := String.ofList r.lexeme, span := r.span gap.here,
       literal := r.literal },
      gap.errors ++ r.errors, ⟨r.rest, gap.here.after r.lexeme, r.kind == .kwAsm⟩)

/-- The tokens up to and including the end of the text, at most `fuel` of them, and all
complaints. -/
def Scanner.run : Nat → Scanner → List Token × List Diagnostic
  | 0, _ => ([], [])
  | fuel + 1, s =>
    let (token, errors, behind) := s.next
    if token.kind = .eof then ([token], errors)
    else
      let (tokens, more) := run fuel behind
      (token :: tokens, errors ++ more)

/-- The tokens of a text, the last of which is its end, and the complaints about it.  Each token but
the last takes a character, so a text has at most one more token than characters. -/
def scan (source : String) : List Token × List Diagnostic :=
  (Scanner.ofString source).run (source.length + 1)

end FluxFront.Token
