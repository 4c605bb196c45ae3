import FluxFront.Grammar.Nesting
import FluxFront.Token.Scanner

/-!
# Whole programs

A program is a sequence of declarations and statements.  Reading one never fails: it gives a tree and
the diagnostics about it.
-/

namespace FluxFront

/-- The settings of a parse. -/
structure Config where
  /-- How deep constructs may be nested. -/
  maxNestingDepth : Nat := 64
  /-- Whether statements may stand outside of functions. -/
  allowTopLevelStatements : Bool := true
  /-- How many errors are kept. -/
  maxErrors : Option Nat := none
deriving DecidableEq, Repr, Inhabited

namespace Grammar

/-- The declarations that one item outside of everything gives. -/
def topLevelItem (config : Config) (inner : Level) : Parser (List Decl) := do
  match ← declarationBody inner .topLevel with
  | some decls => return decls
  | none =>
    let stmt ← plainStatement inner .topLevel
    unless config.allowTopLevelStatements do
      reportStructural .topLevelStatement "Statements are not allowed at the top level" stmt.span
    return [← nodeAt (Decl.mk (.statement stmt)) stmt.span]

/-- A program up to the end of the text, given the entries for what its items contain. -/
def programOver (config : Config) (inner : Level) : Parser Program := do
  let start ← here
  let declarations ← bodyItems .eof (topLevelItem config inner)
  let s ← get
  let stop := s.current.span.start.max s.lastEnd
  return { declarations, span := ⟨start, stop.max start⟩ }

/-- A program up to the end of the text.  One level more than the limit is never gone through. -/
def program (config : Config) : Parser Program :=
  programOver config (counted config.maxNestingDepth (config.maxNestingDepth + 1))

/-- A program together with the errors recorded on the way, which are handed over. -/
def programAndErrors (config : Config) : Parser (Program × Diagnostic.Collection) := do
  let program ← program config
  let errors := (← get).errors
  modify fun s => { s with errors := .empty config.maxErrors }
  return (program, errors)

end Grammar

/-- The tree of a text and the diagnostics about it. -/
structure ParseResult where
  program : Program
  errors : Diagnostic.Collection
  /-- What happened on the way, in order. -/
  events : List Grammar.Event

/-- Reads a program from tokens; the diagnostics are in the order they were noticed. -/
def parseTokens (tokens : List Token) (config : Config) : ParseResult :=
  let ((program, errors), s) :=
    (Grammar.programAndErrors config).run (.ofTokens tokens config.maxErrors)
  { program, errors, events := s.events.reverse }

/-- Reads a program from a text; the diagnostics about its characters and about its tokens are merged
in the order of their places. -/
def parse (source : String) (config : Config) : ParseResult :=
  let (tokens, lexical) := Token.scan source
  let result := parseTokens tokens config
  let errors := ((Diagnostic.Collection.empty config.maxErrors).merge { errors := lexical }).merge
    result.errors
  { result with errors }

end FluxFront
