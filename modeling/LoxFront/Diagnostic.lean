/-
This file defines a diagnostic, the form in which every failure reaches the user: a place in the
text, by line and column, and a message that is already complete.
-/

import LoxFront.Text

namespace LoxFront

/-- A message about a text, with the line and the column it is about. -/
structure Diagnostic where
  line : Nat
  column : Nat
  message : Text
  deriving DecidableEq

/-- Several diagnostics as one text, a message to a line. -/
def Diagnostic.report (diagnostics : List Diagnostic) : Text :=
  Text.joinLines (diagnostics.map Diagnostic.message)

end LoxFront
