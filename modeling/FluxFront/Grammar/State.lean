import FluxFront.Diagnostic.Collection
import FluxFront.Token.Basic
import FluxFront.Tree.Basic

/-!
# The state of a parse

A parse reads a list of tokens from left to right and threads a `State`: the tokens ahead, what was
reported so far, and the counters that stamp nodes.

* **Cursor**: the tokens ahead are a list that ends with the end of the text; the cursor never moves
  past it.  `lastEnd` is the furthest place any token or stand-in has reached, and every node ends
  there.
* **Panic**: the first error at a place is recorded and starts a panic, during which further errors
  are counted but not recorded.
* **Nesting**: `depth` counts the constructs around the cursor, and `skimming` says that the sizes of
  arrays are skipped.  No checkpoint holds them: whoever changes one of them changes it back.
* **Looking ahead**: a `Checkpoint` holds the counters of a state, and `State.rewound` goes back to
  it: the cursor moves back over the tokens behind, tokens that were split are joined again, the last
  split first, and errors recorded since are dropped.  `lookAhead` always goes back, `attempt` only
  if nothing was found.
-/

namespace FluxFront.Grammar

open Token (Kind)

/-- What a parse did that a reader following it may want to know. -/
inductive Event
  /-- A form told apart by looking ahead was read, from a position, over a number of tokens. -/
  | committed (what : String) (position count : Nat)
  /-- Tokens were skipped up to the given one. -/
  | skipped (count : Nat) (resumed : Token)
  /-- Nothing could be read at a token, which was skipped. -/
  | stuck (token : Token)
  /-- A name turned out not to start a declaration. -/
  | retried (token : Token)

/-- Everything a parse knows. -/
structure State where
  /-- The tokens ahead. -/
  rest : List Token
  /-- The tokens behind, the latest first. -/
  behind : List Token
  /-- How many tokens lie behind. -/
  position : Nat
  errors : Diagnostic.Collection
  /-- Whether errors are only counted until the next boundary. -/
  panicking : Bool
  /-- How many errors were noticed, recorded or not. -/
  failures : Nat
  /-- How many constructs are around the cursor. -/
  depth : Nat
  /-- The identity of the next node. -/
  nextId : NodeId
  /-- The furthest place that was read or stood in for. -/
  lastEnd : Location
  /-- The tokens `>>` that were split in two and the positions they stood at, the latest first. -/
  splits : List (Nat × Token)
  /-- Whether the sizes of arrays are skipped instead of read. -/
  skimming : Bool
  /-- No loop of the grammar takes more steps than this. -/
  bound : Nat
  /-- What happened, the latest first. -/
  events : List Event

/-- A parser reads tokens and always gives a result. -/
abbrev Parser := StateM State

/-- The tokens with their end made sure of. -/
def closeTokens (tokens : List Token) : List Token :=
  match tokens.getLast? with
  | some last => if last.kind = .eof then tokens else tokens ++ [Token.endAt last.span.stop]
  | none => [Token.endAt default]

/-- The state in front of a list of tokens. -/
def State.ofTokens (tokens : List Token) (maxErrors : Option Nat) : State :=
  let rest := closeTokens tokens
  { rest
    behind := []
    position := 0
    errors := .empty maxErrors
    panicking := false
    failures := 0
    depth := 0
    nextId := 0
    lastEnd := default
    splits := []
    skimming := false
    -- a token makes at most two steps: `>>` may be read as two closing brackets
    bound := 2 * rest.length + 1
    events := [] }

namespace State

/-- The token at the cursor. -/
def current (s : State) : Token := s.rest.headD (Token.endAt default)

/-- The kind of the token read last. -/
def previous (s : State) : Option Kind := s.behind.head?.map Token.kind

/-- The kind of the token `n` places ahead; beyond the last token the text has ended. -/
def kindAt (s : State) (n : Nat) : Kind := (s.rest[n]?.map Token.kind).getD .eof

/-- The state behind the current token; the end of the text is never left behind. -/
def advanced (s : State) : State :=
  match s.rest with
  | [] => s
  | t :: rest =>
    if t.kind = .eof then s
    else { s with rest, behind := t :: s.behind, position := s.position + 1,
                  lastEnd := s.lastEnd.max t.span.stop }

/-- The state in which a token `>>` at the cursor is two tokens `>`. -/
def splitShift (s : State) : State :=
  match s.rest with
  | t :: rest =>
    if t.kind = .shr then
      let start := t.span.start
      let middle : Location := ⟨start.line, start.column + 1, start.offset + 1⟩
      let first : Token := { kind := .greater, lexeme := ">", span := ⟨start, middle⟩ }
      let second : Token := { kind := .greater, lexeme := ">", span := ⟨middle, t.span.stop⟩ }
      { s with rest := first :: second :: rest, splits := (s.position, t) :: s.splits }
    else s
  | [] => s

/-- The state behind an error: it is counted and, outside of a panic, recorded and starts one. -/
def reported (d : Diagnostic) (s : State) : State :=
  if s.panicking then { s with failures := s.failures + 1 }
  else { s with failures := s.failures + 1, panicking := true, errors := s.errors.addError d }

/-- The state with something recorded that is well formed but not allowed. -/
def recorded (d : Diagnostic) (s : State) : State :=
  if s.panicking then s else { s with errors := s.errors.addError d }

/-- The state behind an event. -/
def noted (event : Event) (s : State) : State := { s with events := event :: s.events }

/-- The state in which the panic has ended. -/
def calmed (s : State) : State := { s with panicking := false }

/-- The state one level further in. -/
def deeper (s : State) : State := { s with depth := s.depth + 1 }

/-- The state one level further out. -/
def shallower (s : State) : State := { s with depth := s.depth - 1 }

/-- The state in which array sizes are skipped or read. -/
def skims (skimming : Bool) (s : State) : State := { s with skimming }

end State

/-! ## Checkpoints -/

/-- What is needed to come back to a state. -/
structure Checkpoint where
  position : Nat
  errorCount : Nat
  panicking : Bool
  failures : Nat
  nextId : NodeId
  lastEnd : Location
  splitCount : Nat

/-- The tokens from position `first` on, with the two halves of a token that was split replaced by
the token. -/
def rejoin (first : Nat) (tokens : List Token) (split : Nat × Token) : List Token :=
  tokens.take (split.1 - first) ++ split.2 :: tokens.drop (split.1 - first + 2)

namespace State

/-- The checkpoint at a state. -/
def checkpoint (s : State) : Checkpoint where
  position := s.position
  errorCount := s.errors.errors.length
  panicking := s.panicking
  failures := s.failures
  nextId := s.nextId
  lastEnd := s.lastEnd
  splitCount := s.splits.length

/-- The state back at a checkpoint.  Splits made since are undone, the latest first. -/
def rewound (mark : Checkpoint) (s : State) : State :=
  let passed := s.position - mark.position
  let made := s.splits.length - mark.splitCount
  { s with
    rest := (s.splits.take made).foldl (rejoin mark.position)
      ((s.behind.take passed).reverse ++ s.rest)
    behind := s.behind.drop passed
    position := mark.position
    errors := s.errors.truncate mark.errorCount
    panicking := mark.panicking
    failures := mark.failures
    nextId := mark.nextId
    lastEnd := mark.lastEnd
    splits := s.splits.drop made }

end State

/-! ## The cursor -/

/-- The token at the cursor. -/
def current : Parser Token := return (← get).current

/-- The kind of the token at the cursor. -/
def kind : Parser Kind := return (← get).current.kind

/-- The kind of the token `n` places ahead. -/
def kindAt (n : Nat) : Parser Kind := return (← get).kindAt n

/-- How many tokens lie behind. -/
def position : Parser Nat := return (← get).position

/-- Where the current token starts. -/
def here : Parser Location := return (← get).current.span.start

/-- Whether the current token has a kind. -/
def check (k : Kind) : Parser Bool := return (← kind) == k

/-- Whether the current token has one of some kinds. -/
def checkAny (ks : List Kind) : Parser Bool := return ks.contains (← kind)

/-- Whether the text has ended. -/
def atEnd : Parser Bool := check .eof

/-- Whether the current token has a kind, or the text has ended. -/
def checkOrEnd (k : Kind) : Parser Bool := checkAny [k, .eof]

/-- Reads the current token. -/
def advance : Parser Token := do
  let token ← current
  modify State.advanced
  return token

/-- Reads the current token if it has a kind, and tells whether it had. -/
def accept (k : Kind) : Parser Bool := do
  if ← check k then
    let _ ← advance
    return true
  else return false

/-- Reads the current token if it has one of some kinds, and tells which. -/
def acceptAny (ks : List Kind) : Parser (Option Kind) := do
  let k ← kind
  if ks.contains k then
    let _ ← advance
    return some k
  else return none

/-- Runs a parser and goes back to where it started. -/
def lookAhead {α : Type} (p : Parser α) : Parser α := do
  let mark := (← get).checkpoint
  let a ← p
  modify (State.rewound mark)
  return a

/-- Runs a parser and, if it finds nothing, goes back to where it started. -/
def attempt {α : Type} (p : Parser (Option α)) : Parser (Option α) := do
  let mark := (← get).checkpoint
  match ← p with
  | some a => return some a
  | none =>
    modify (State.rewound mark)
    return none

/-! ## Nodes -/

/-- The span from a place to the end of everything read since. -/
def spanFrom (start : Location) : Parser Span := return ⟨start, (← get).lastEnd.max start⟩

/-- An empty span at the cursor, for something that is missing there. -/
def emptySpan : Parser Span := do
  let s ← get
  let place := s.current.span.start.max s.lastEnd
  set { s with lastEnd := place }
  return .single place

/-- A fresh identity. -/
def freshId : Parser NodeId := do
  let s ← get
  set { s with nextId := s.nextId + 1 }
  return s.nextId

/-- A fresh node with a given span. -/
def nodeAt {α : Type} (build : Span → NodeId → α) (span : Span) : Parser α :=
  return build span (← freshId)

/-- A fresh node from a place to the end of everything read since. -/
def node {α : Type} (build : Span → NodeId → α) (start : Location) : Parser α := do
  nodeAt build (← spanFrom start)

/-! ## Errors -/

/-- Counts an error and, outside of a panic, records it and starts one. -/
def report (kind : Diagnostic.Kind) (message : String) (span : Span) : Parser Unit :=
  modify (State.reported (.located kind message span))

/-- Records a construct that is well formed but not allowed; it starts no panic. -/
def reportStructural (kind : Diagnostic.Kind) (message : String) (span : Span) : Parser Unit :=
  modify (State.recorded (.located kind message span))

/-- Reports that the current token is not the expected one. -/
def reportUnexpected (expected : String) : Parser Unit := do
  let token ← current
  if token.kind = .eof then
    report .unexpectedEof (expected ++ ", found end of file") token.span
  else report .expectedToken (expected ++ ", found " ++ token.describe) token.span

/-- Notes an event. -/
def note (event : Event) : Parser Unit := modify (State.noted event)

/-- Notes that a form was read from a position on. -/
def noteCommitted (what : String) (start : Nat) : Parser Unit := do
  note (.committed what start ((← position) - start))

/-- Reads a token of the expected kind, or reports its absence and reads nothing. -/
def consume (k : Kind) (expected : String) : Parser Unit := do
  if ← check k then
    let _ ← advance
  else reportUnexpected expected

/-- Reads a name, which is empty if there is none. -/
def consumeName (expected : String) : Parser String := do
  if ← check .identifier then return (← advance).lexeme
  else
    reportUnexpected expected
    return ""

/-- Reads the bracket that closes an angle-bracket list, the first half of a `>>` included. -/
def consumeClosingAngle (expected : String) : Parser Unit := do
  modify State.splitShift
  consume .greater expected

/-! ## Loops -/

/-- Takes steps from a value to the next, at most `fuel` of them. -/
def iterateUpTo {β : Type} : Nat → (β → Parser (Option β)) → β → Parser β
  | 0, _, b => return b
  | fuel + 1, step, b => do
    match ← step b with
    | some next => iterateUpTo fuel step next
    | none => return b

/-- Takes steps from a value to the next until there is none. -/
def iterate {β : Type} (step : β → Parser (Option β)) (b : β) : Parser β := do
  iterateUpTo (← get).bound step b

/-- The results of a parser that is run until it gives none, at most `fuel` times. -/
def manyUpTo {α : Type} : Nat → Parser (Option α) → Parser (List α)
  | 0, _ => return []
  | fuel + 1, p => do
    match ← p with
    | some a => return a :: (← manyUpTo fuel p)
    | none => return []

/-- The results of a parser that is run until it gives none. -/
def many {α : Type} (p : Parser (Option α)) : Parser (List α) := do
  manyUpTo (← get).bound p

/-- One or more items with commas between them. -/
def commaSeparated {α : Type} (item : Parser α) : Parser (List α) := do
  let first ← item
  let more ← many do
    if ← accept .comma then return some (← item) else return none
  return first :: more

/-- Items up to a closing token with commas between them and possibly one behind the last. -/
def commaTerminated {α : Type} (close : Kind) (item : Parser α) : Parser (List α) := do
  if ← checkOrEnd close then return []
  let first ← item
  let more ← many do
    if ← accept .comma then
      if ← checkOrEnd close then return none else return some (← item)
    else return none
  return first :: more

/-- Skips a token inside `depth` groups: the number of groups around what follows it, or nothing in
front of the bracket that closes the outermost one. -/
def skipInGroup (depth : Nat) : Parser (Option Nat) := do
  match ← kind with
  | .eof => return none
  | .leftParen | .leftBracket | .leftBrace =>
    let _ ← advance
    return some (depth + 1)
  | .rightParen | .rightBracket | .rightBrace =>
    match depth with
    | 0 => return none
    | outer + 1 =>
      let _ ← advance
      return some outer
  | _ =>
    let _ ← advance
    return some depth

/-- Moves to the bracket that closes the current group; groups inside are skipped whole. -/
def skipGroup : Parser Unit := do
  let _ ← iterateUpTo (← get).rest.length skipInGroup 0

end FluxFront.Grammar
