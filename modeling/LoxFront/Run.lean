/-
This file runs the front end on one text: the tokens are listed on request, and then the tree is
written in prefix form. The first stage that fails ends the run.
-/

import LoxFront.Expr.Printing
import LoxFront.Parsing
import LoxFront.Sink

namespace LoxFront

/-- Why a run ended early. -/
inductive RunFailure
  /-- The text is not an expression. -/
  | diagnostics (found : List Diagnostic)
  /-- The output did not fit. -/
  | sinkFull
  deriving DecidableEq

/-- The reason in words. -/
def RunFailure.message : RunFailure → Text
  | .diagnostics found => Diagnostic.report found
  | .sinkFull => "sink is full".toList

/-- A computation that writes to a sink and may end early. -/
abbrev Emission := ExceptT RunFailure (StateM Sink)

/-- Writes a line. -/
def emitLine (line : Text) : Emission Unit := do
  let whole ← modifyGet fun sink => sink.accept (Text.utf8 (line ++ ['\n']))
  unless whole do throw .sinkFull

/-- Reads a text as an expression and writes its prefix form. If they are asked for, the tokens are
listed first, also where the text turns out to be no expression. -/
def run (source : Text) (listTokens : Bool) : Emission Unit := do
  let (tokens, errors) := tokenize source
  if listTokens then
    emitLine (Text.joinLines (tokens.map Token.listing))
  unless errors.isEmpty do
    throw (.diagnostics (errors.map LexicalError.diagnostic))
  match parseWhole tokens with
  | .ok expr => emitLine expr.prefixForm
  | .error error => throw (.diagnostics [error.diagnostic])

/-- The result of a run, and the sink after it. -/
def runInto (sink : Sink) (source : Text) (listTokens : Bool) : Except RunFailure Unit × Sink :=
  (run source listTokens).run.run sink

end LoxFront
