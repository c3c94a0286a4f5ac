/-
This file defines a span: a stretch of a text, given by the place where it starts and by the
characters it covers.
-/

import LoxFront.Place

namespace LoxFront

/-- A stretch of a text. -/
structure Span where
  /-- The place before the first character of the span. -/
  start : Place
  /-- The characters of the span. -/
  lexeme : Text
  deriving DecidableEq

namespace Span

/-- The span from one place up to another, if they bound a stretch of one text. -/
def between? (start stop : Place) : Option Span :=
  (start.textUntil? stop).map fun lexeme => { start, lexeme }

/-- The place after the last character of the span. -/
def stop (span : Span) : Place := span.start.skip span.lexeme.length

/-- The line on which the span starts. -/
def line (span : Span) : Nat := span.start.line

/-- The column at which the span starts. -/
def column (span : Span) : Nat := span.start.column

/-- Whether two spans cover the same stretch of the same text. -/
def same (first second : Span) : Bool :=
  first.lexeme == second.lexeme && first.start.same second.start

end Span

end LoxFront
