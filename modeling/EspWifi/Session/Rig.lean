import EspWifi.Board.Machine
import EspWifi.Board.Power
import EspWifi.Session.Reply

/-!
# The board on the bench

The parts of the board, each operated on its own.

* `RigAction`: the operations.
* `RigAction.perform`: carry out an operation.
-/

namespace EspWifi

/-- A board and its lamp. -/
structure Rig where
  board : Board
  lamp : Lamp := { pin := .pb0, activeHigh := true }

/-- Operations on the parts of the board. -/
inductive RigAction where
  | configurePins
  | newLamp (activeHigh : Bool)
  | setLamp (on : Bool)
  | toggleLamp
  | isLampOn
  | newClock (mhz : Nat)
  | millis
  | elapsed (start : UInt32)
  | delay (ms : UInt32)
  | newPower
  | powerOn
  | hardReset
  | powerOff
  | newConsole (baud : Nat)
  | print (bytes : Bytes)
  /-- Write bytes through a formatter, which reports whether it succeeded. -/
  | format (bytes : Bytes)
  | flushConsole
  | newLogger (baud : Nat) (verbosity : Verbosity)
  | log (level : Level) (text : String)
  | isLogged (level : Level)
  | flushLog
  | newLink (baud : Nat)
  | available
  | read
  | peek
  | write (data : Bytes)
  | takeErrors
  | readAll
  /-- Let cycles pass. -/
  | idle (cycles : Nat)
  /-- Mask or unmask the interrupt of the serial port. -/
  | unmask (on : Bool)
  /-- Set how many bytes the line can send in a millisecond. -/
  | setRate (n : Nat)

variable {α : Type}

/-- A board program, run on the board of a rig. -/
def onBoard (m : Run Board α) : Run Rig α :=
  Run.focus (·.board) (fun b r => { r with board := b }) m

/-- Let `n` cycles pass. -/
def Board.idle : Nat → Run Board Unit
  | 0 => return ()
  | n + 1 => do
    cycle
    idle n

/-- Read byte by byte until there is none. -/
def Board.readAll : Run Board Bytes := do
  Run.loop ((← get).looksLeft + 1) (fun bytes => do
    match ← Device.read with
    | none => return .finish bytes.reverse
    | some b => return .again (b :: bytes)) []

/-- Replace the lamp by what an operation on it leaves behind. -/
def operateLamp (f : Lamp → Run Board Lamp) : Run Rig Reply := do
  let lamp ← onBoard (f (← get).lamp)
  modify fun r => { r with lamp := lamp }
  return .done

/-- An operation with nothing to tell. -/
def quietly (m : Run Board Unit) : Run Rig Reply := do
  onBoard m
  return .done

/-- **Carry out an operation.** -/
def RigAction.perform : RigAction → Run Rig Reply
  | .configurePins => quietly Board.configurePins
  | .newLamp activeHigh => operateLamp fun _ => Lamp.attach .pb0 activeHigh
  | .setLamp on => operateLamp fun l => l.set on
  | .toggleLamp => operateLamp fun l => l.toggle
  | .isLampOn => do return .flag (← get).lamp.isOn
  | .newClock mhz => quietly (Board.startClock mhz)
  | .millis => do return .number (← onBoard Device.millis).toNat
  | .elapsed start => do return .number (← onBoard (EspWifi.elapsed start)).toNat
  | .delay ms => quietly (Device.delay ms)
  | .newPower => quietly Power.attach
  | .powerOn => quietly Power.on
  | .hardReset => quietly Power.hardReset
  | .powerOff => quietly Power.off
  | .newConsole baud => quietly (Board.note (.openConsole baud))
  | .print bytes => quietly (Board.print bytes)
  | .format bytes => do
    onBoard (Board.print bytes)
    return .flag true
  | .flushConsole => quietly (Board.note .flushConsole)
  | .newLogger baud verbosity => quietly (Board.startLogger baud verbosity)
  | .log level text => quietly (Device.record level text)
  | .isLogged level => do return .flag ((← get).board.verbosity.keeps level)
  | .flushLog => quietly Board.flushLog
  | .newLink baud => quietly (Board.openLink baud)
  | .available => do return .number (← onBoard Device.available)
  | .read => do return .byte (← onBoard Device.read)
  | .peek => do return .byte (← onBoard Device.peek)
  | .write data => do return .number (← onBoard (Device.write data))
  | .takeErrors => do return .number (← onBoard Device.takeErrors).bits
  | .readAll => do return .bytes (← onBoard Board.readAll)
  | .idle cycles => quietly (Board.idle cycles)
  | .unmask on => quietly (modify fun b => { b with unmasked := on })
  | .setRate n => quietly (modify fun b => { b with rate := n })

end EspWifi
