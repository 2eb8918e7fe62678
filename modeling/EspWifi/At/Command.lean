import EspWifi.At.Fault

/-!
# Command lines

A command is formatted piece by piece into a line of bounded size. A command that is too long is
refused; it is never cut.

* `commandLine`: the line of a command, without its end.
* `endLine`: the line as it goes out.
-/

namespace EspWifi

/-- The longest command, in bytes, its line end not counted. -/
def commandLimit : Nat := 200

/-- Room in a line: the longest command and its line end. -/
def lineCapacity : Nat := commandLimit + 2

/-- Append pieces to a line as long as they fit into `capacity` bytes. -/
def appendWithin (capacity : Nat) : String → List String → Option String
  | line, [] => some line
  | line, piece :: rest =>
    if line.utf8ByteSize + piece.utf8ByteSize ≤ capacity then
      appendWithin capacity (line ++ piece) rest
    else none

/-- **The line of a command given in pieces**, refused when it is longer than a command may be. -/
def commandLine (pieces : List String) : Except Fault String :=
  match appendWithin lineCapacity "" pieces with
  | none => .error .commandTooLong
  | some line => if line.utf8ByteSize ≤ commandLimit then .ok line else .error .commandTooLong

/-- The line with its end. -/
def endLine (line : String) : Except Fault String :=
  match appendWithin lineCapacity line [lineEnd] with
  | none => .error .commandTooLong
  | some line => .ok line

end EspWifi
