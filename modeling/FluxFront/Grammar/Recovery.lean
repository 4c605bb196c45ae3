import FluxFront.Grammar.State

/-!
# Recovery

How a parse goes on behind an error.  In a panic, tokens are skipped up to the next boundary: behind
a semicolon, at a closing brace, or at a keyword that starts a statement or declaration.  A missing
semicolon is forgiven on the spot if the next token starts something new.

Every body loop ends each item with `recoverAfterItem`, which skips a token if the item read none;
so the loop always gets on.
-/

namespace FluxFront.Grammar

open Token (Kind)

/-- The keywords that start a statement or a declaration. -/
def boundaryKeywords : List Kind :=
  [.kwNamespace, .kwClass, .kwObject, .kwStruct, .kwDef, .kwConst, .kwImport, .kwUsing, .kwOperator,
   .kwTemplate, .kwEnum, .kwType, .kwData, .kwSigned, .kwUnsigned, .kwAsm, .kwIf, .kwDo, .kwWhile,
   .kwFor, .kwReturn, .kwBreak, .kwContinue, .kwThrow, .kwTry, .kwSwitch, .kwCase, .kwAssert,
   .kwLock, .kwPreLock, .kwPostLock]

/-- The kinds of tokens at which a missing semicolon is forgiven. -/
def statementStarts : List Kind :=
  boundaryKeywords ++
    [.identifier, .intLiteral, .floatLiteral, .charLiteral, .stringLiteral, .bitLiteral,
     .interpolatedString, .kwTrue, .kwFalse, .kwAuto, .kwVoid, .kwVolatile, .leftBrace, .rightBrace,
     .eof]

/-- Ends the panic. -/
def calm : Parser Unit := modify State.calmed

/-- Reads the semicolon that ends a statement or a declaration. -/
def expectSemicolon (after : String) : Parser Unit := do
  if ← accept .semicolon then return
  let panicked := (← get).panicking
  reportUnexpected ("Expected ';' after " ++ after)
  if !panicked && (← checkAny statementStarts) then calm

/-- Whether the cursor stands at a boundary or at the end of the text. -/
def atBoundary : Parser Bool := do
  let s ← get
  let k := s.current.kind
  return k == .eof || s.previous == some .semicolon || k == .rightBrace
    || boundaryKeywords.contains k

/-- Skips tokens up to a boundary.  The panic ends there, but not at the end of the text. -/
def synchronize : Parser Unit := do
  let start ← position
  let _ ← iterate (fun () => do
    if ← atBoundary then return none
    else
      let _ ← advance
      return some ()) ()
  unless ← atEnd do calm
  let stop ← position
  if start < stop then note (.skipped (stop - start) (← current))

/-- Goes on behind an item that started at a position: an item that read nothing costs a token, and
a panic is left at the next boundary. -/
def recoverAfterItem (before : Nat) : Parser Unit := do
  if (← position) == before && !(← atEnd) then
    note (.stuck (← current))
    let _ ← advance
    synchronize
  else if (← get).panicking then synchronize

/-- One round of a body: nothing at its closing token or at the end of the text, otherwise a semicolon
or an item. -/
def bodyRound {α : Type} (close : Kind) (item : Parser (List α)) : Parser (Option (List α)) := do
  if ← checkOrEnd close then return none
  else if ← accept .semicolon then return some []
  else
    let before ← position
    let items ← item
    recoverAfterItem before
    return some items

/-- The items of a body up to its closing token; semicolons between them are skipped. -/
def bodyItems {α : Type} (close : Kind) (item : Parser (List α)) : Parser (List α) := do
  let groups ← many (bodyRound close item)
  return groups.flatten

end FluxFront.Grammar
