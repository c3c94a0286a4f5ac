/-
This file defines where output goes: a sink that keeps what it is given, and that may have room
for only so many bytes. Whoever writes to a full sink learns of it, and the bytes that still fitted
have been taken.
-/

import LoxFront.Text

namespace LoxFront

/-- A destination of output. -/
structure Sink where
  /-- What has been taken so far, in order. -/
  received : Bytes := []
  /-- How many bytes can still be taken, if that is limited. -/
  room? : Option Nat := none

/-- Gives bytes to a sink. It takes as many as it has room for, and says whether those were all. -/
def Sink.accept (sink : Sink) (bytes : Bytes) : Bool × Sink :=
  match sink.room? with
  | none => (true, { sink with received := sink.received ++ bytes })
  | some room =>
    (bytes.length ≤ room,
      { received := sink.received ++ bytes.take room, room? := some (room - bytes.length) })

end LoxFront
