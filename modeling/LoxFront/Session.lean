/-
This file says what the program writes when it is called: on a file, or line by line at a prompt.
A line is run for itself, so what one line does to the program is over when the next one is read.
-/

import LoxFront.Run

namespace LoxFront

/-- All that one call of the program leaves behind. -/
structure Transcript where
  /-- What was written to the standard output. -/
  output : Bytes := []
  /-- What was written to the standard error output. -/
  errors : Bytes := []
  /-- The exit code. -/
  code : Nat := 0
  deriving DecidableEq

namespace Transcript

/-- The transcript of an error that ends the program. -/
def failed (output : Bytes) (message : Text) : Transcript where
  output := output
  errors := Text.utf8 ("Error: ".toList ++ message ++ ['\n'])
  code := 1

/-- One transcript after another. The exit code is that of the later one. -/
def followedBy (first second : Transcript) : Transcript where
  output := first.output ++ second.output
  errors := first.errors ++ second.errors
  code := second.code

end Transcript

namespace Session

/-- What is said about bytes that are no text. -/
def notUtf8 : Text := "stream did not contain valid UTF-8".toList

/-- What is said about a file that is not there. -/
def noSuchFile : Text := "No such file or directory (os error 2)".toList

/-! ### Files -/

/-- A text with every line but the first moved in by four columns. -/
def indented (text : Text) : Text :=
  text.flatMap fun character => if character = '\n' then "\n    ".toList else [character]

/-- Diagnostics as they are shown when they end the program: once as the error, and once more as
its cause. -/
def fatalReport (diagnostics : List Diagnostic) : Text :=
  let report := Diagnostic.report diagnostics
  report ++ "\n\nCaused by:\n    ".toList ++ indented report

/-- The program called on a file with the given contents. -/
def onFile (listTokens : Bool) (contents : Bytes) : Transcript :=
  match Text.ofUtf8? contents with
  | none => .failed [] notUtf8
  | some source =>
    match runInto {} source listTokens with
    | (.ok _, sink) => { output := sink.received }
    | (.error (.diagnostics diagnostics), sink) =>
      .failed sink.received (fatalReport diagnostics)
    | (.error error, sink) => .failed sink.received error.message

/-- The program called on a file that is not there. -/
def onMissingFile : Transcript := .failed [] noSuchFile

/-! ### The prompt -/

/-- What is written before a line is read. -/
def promptMark : Bytes := Text.utf8 "> ".toList

/-- The byte that ends a line. -/
def newline : UInt8 := 10

/-- Input cut into lines, each with the newline that ends it. The last line may lack it. -/
def lines : Bytes → List Bytes
  | [] => []
  | byte :: rest =>
    if byte = newline then [byte] :: lines rest
    else
      match lines rest with
      | [] => [[byte]]
      | line :: later => (byte :: line) :: later

/-- The answer to one line. An exit code other than zero ends the session. -/
def onLine (listTokens : Bool) (line : Bytes) : Transcript :=
  match Text.ofUtf8? line with
  | none => .failed [] notUtf8
  | some source =>
    match runInto {} source listTokens with
    | (.ok _, sink) => { output := sink.received }
    | (.error (.diagnostics diagnostics), sink) =>
      { output := sink.received
        errors := Text.utf8 (Diagnostic.report diagnostics ++ ['\n']) }
    | (.error error, sink) => .failed sink.received error.message

/-- The session on a list of lines: a mark, the answer, and so on, up to the end of the input. -/
def onLines (listTokens : Bool) : List Bytes → Transcript
  | [] => { output := promptMark }
  | line :: later =>
    let answer := onLine listTokens line
    let shown := { answer with output := promptMark ++ answer.output }
    if answer.code = 0 then shown.followedBy (onLines listTokens later) else shown

/-- The program called without a file, on everything that is typed at the prompt. -/
def atPrompt (listTokens : Bool) (input : Bytes) : Transcript := onLines listTokens (lines input)

end Session

end LoxFront
