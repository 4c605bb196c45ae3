import FluxFront.Grammar.Level

/-!
# Blocks and raw assembly

The two bodies that both statements and declarations have.
-/

namespace FluxFront.Grammar

/-- Statements between braces. -/
def block (inner : Level) (context : Context) : Parser Block := do
  let start ← here
  if ← accept .leftBrace then
    match ← inner.items context with
    | none => return { statements := [], span := ← spanFrom start }
    | some statements =>
      consume .rightBrace "Expected '\x7d' after block"
      return { statements, span := ← spanFrom start }
  else
    reportUnexpected "Expected '\x7b'"
    return { statements := [], span := ← emptySpan }

/-- The raw text behind the keyword `asm`: a block, or a string and a semicolon. -/
def asmBody : Parser String := do
  let _ ← advance
  match ← kind with
  | .asmBlock =>
    let raw := rawText (← advance)
    let _ ← accept .semicolon
    return raw
  | .stringLiteral =>
    let raw := rawText (← advance)
    expectSemicolon "asm string"
    return raw
  | _ =>
    reportUnexpected "Expected '\x7b' or string after 'asm'"
    return ""
where
  rawText (token : Token) : String :=
    match token.literal with
    | some (.string raw) => raw
    | _ => ""

end FluxFront.Grammar
