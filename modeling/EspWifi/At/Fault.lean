import EspWifi.At.Tag
import EspWifi.Run

/-!
# Faults

The ways in which an operation on the module fails. A fault is a value: the operation has ended, and
the state it left behind is there to go on from.
-/

namespace EspWifi

/-- Why an operation failed. -/
inductive Fault where
  /-- No tag arrived in time. -/
  | timeout
  /-- The response ended with this tag before the field that was looked for appeared. -/
  | notFound (t : Tag)
  /-- The response ended with a tag other than the one the operation needs. -/
  | rejected (t : Tag)
  /-- The command does not fit into a command line. -/
  | commandTooLong
  /-- All links are in use. -/
  | noFreeLink
  /-- There is no such link, or the waiting packet belongs to another one. -/
  | invalidLink
  /-- The module never asked for the payload. -/
  | prompt
  /-- A response arrived, but a field in it makes no sense. -/
  | parse
  deriving DecidableEq

namespace Fault

/-- The kind of a fault. -/
def kind : Fault → String
  | timeout => "Timeout"
  | notFound _ => "NotFound"
  | rejected _ => "Rejected"
  | commandTooLong => "CommandTooLong"
  | noFreeLink => "NoSocket"
  | invalidLink => "InvalidSocket"
  | prompt => "Prompt"
  | parse => "Parse"

/-- The text of a fault: its kind, with the tag it is about. -/
def message : Fault → String
  | notFound t => "NotFound(" ++ t.name ++ ")"
  | rejected t => "Rejected(" ++ t.name ++ ")"
  | f => f.kind

end Fault

/-- A program on the state `σ` that may fail. -/
abbrev Attempt (σ α : Type) := ExceptT Fault (Run σ) α

variable {σ τ α : Type}

/-- A program that cannot fail, as a step of one that may. -/
def lift (m : Run σ α) : Attempt σ α := ExceptT.lift m

/-- A result that was worked out without the device. -/
def liftResult (r : Except Fault α) : Attempt σ α := ExceptT.mk (pure r)

/-- `Run.focus` for programs that may fail. -/
def Attempt.focus (get : τ → σ) (put : σ → τ → τ) (m : Attempt σ α) : Attempt τ α :=
  ExceptT.mk (Run.focus get put m.run)

end EspWifi
