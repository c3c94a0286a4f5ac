/-
This file is the command line. It reads bytes and writes bytes; what is written is decided in the
module on sessions.
-/

import LoxFront.Session

namespace LoxFront.CommandLine

/-- What the program is called with. -/
structure Arguments where
  file? : Option String := none
  listTokens : Bool := false

/-- The arguments of a call, unless one of them is unknown or there are two files. -/
def Arguments.read? : List String → Option Arguments
  | [] => some {}
  | "--tokens" :: rest => do
    let arguments ← read? rest
    if arguments.listTokens then none else some { arguments with listTokens := true }
  | argument :: rest => do
    let arguments ← read? rest
    if argument.startsWith "-" || arguments.file?.isSome then none
    else some { arguments with file? := some argument }

/-- Writes a transcript to the two outputs. -/
def present (transcript : Transcript) : IO UInt32 := do
  let output ← IO.getStdout
  output.write ⟨transcript.output.toArray⟩
  output.flush
  let errors ← IO.getStderr
  errors.write ⟨transcript.errors.toArray⟩
  errors.flush
  return transcript.code.toUInt32

/-- Runs a file. -/
def onFile (listTokens : Bool) (file : String) : IO UInt32 := do
  let contents? ← try some <$> IO.FS.readBinFile file
    catch
      | .noFileOrDirectory .. => pure none
      | error => return ← present (.failed [] (toString error).toList)
  match contents? with
  | some contents => present (Session.onFile listTokens contents.toList)
  | none => present Session.onMissingFile

/-- Reads the bytes of one line, newline included. -/
partial def readLine (input : IO.FS.Stream) (read : Bytes) : IO Bytes := do
  let next ← input.read 1
  match next.toList with
  | [] => return read.reverse
  | byte :: _ =>
    if byte = Session.newline then return (byte :: read).reverse
    else readLine input (byte :: read)

/-- Answers line after line until the input ends or an answer ends the session. -/
partial def prompt (listTokens : Bool) : IO UInt32 := do
  let _ ← present { output := Session.promptMark }
  match ← readLine (← IO.getStdin) [] with
  | [] => return 0
  | line =>
    let code ← present (Session.onLine listTokens line)
    if code = 0 then prompt listTokens else return code

end LoxFront.CommandLine

/-- Runs the file that is named, or a prompt if none is. -/
def main (arguments : List String) : IO UInt32 := do
  match LoxFront.CommandLine.Arguments.read? arguments with
  | some { file? := some file, listTokens } => LoxFront.CommandLine.onFile listTokens file
  | some { file? := none, listTokens } => LoxFront.CommandLine.prompt listTokens
  | none =>
    IO.eprintln "usage: loxfront [--tokens] [FILE]"
    return 2
