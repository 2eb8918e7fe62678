import EspWifi.At.Command
import EspWifi.At.Timeouts
import EspWifi.At.Window
import EspWifi.Link.Device

/-!
# The command engine

The engine sends command lines to the module and reads its responses. All waits are busy waits on
the clock of the device, each with its own timeout.

* `Engine.awaitTag`: read up to the first tag.
* `Engine.request`, `Engine.requestOk`: send a command and read its response.
* `Engine.queryField`: send a command and cut a field out of its response.
* `Engine.drain`: throw away whatever is waiting.
-/

namespace EspWifi

/-- Bytes a scan remembers. -/
def windowSize : Nat := 32

/-- The command engine on a device. -/
structure Engine (σ : Type) where
  device : σ
  /-- The last bytes of the last scan. -/
  window : Window windowSize := .empty
  timeouts : Timeouts := {}
  /-- Bytes thrown away by `drain` since the count was last taken. -/
  dropped : Nat := 0

/-- How a scan ended. -/
inductive Scan where
  /-- A known tag ended the response. -/
  | matched (t : Tag)
  /-- The tag that was asked for was seen. -/
  | found
  /-- Nothing matched in time. -/
  | timedOut
  deriving DecidableEq

namespace Scan

/-- How a log record shows the end of a scan. -/
def describe : Scan → String
  | matched t => "Matched(" ++ t.name ++ ")"
  | found => "Found"
  | timedOut => "TimedOut"

/-- **What the bytes read so far amount to.** The tag that was asked for is tested first, then, if
`known` is set, the known tags in their order. -/
def verdict {n : Nat} (w : Window n) (tag : Option Bytes) (known : Bool) : Option Scan :=
  if tag.any w.endsWith then some found
  else if known then (Tag.all.find? fun t => w.endsWith t.bytes).map matched
  else none

end Scan

variable {σ α : Type}

/-- A device program, run on the device of an engine. -/
def onDevice (m : Run σ α) : Run (Engine σ) α :=
  Run.focus (·.device) (fun d e => { e with device := d }) m

variable [Device σ]

instance : MonadLog (EStateM Halt (Engine σ)) where
  record level message := onDevice (Device.record level message)

namespace Engine

/-- The character with the code of a byte, as trace records show it. -/
def traceByte (b : UInt8) : Run (Engine σ) Unit := logTrace (Char.ofNat b.toNat).toString

/-- A bound on the bytes that can still arrive. -/
def backlog : Run (Engine σ) Nat := do return Device.backlog (← get).device

/-- A bound on the looks at the link before it does nothing new. -/
def settling : Run (Engine σ) Nat := do return Device.settling (← get).device

/-- The timeout for a single field. -/
def fieldTimeout : Run (Engine σ) UInt32 := do return (← get).timeouts.field

/-- **Read until `tag`, or a known tag if `known` is set, ends the stream.** The window starts
empty. The scan stops on the byte that completes a tag and leaves everything after it unread. A
round that does not end the scan reads a byte, or waits for one, or for the timeout. -/
def awaitTag (timeout : UInt32) (tag : Option Bytes) (known : Bool) : Run (Engine σ) Scan := do
  modify fun e => { e with window := .empty }
  let start ← onDevice Device.millis
  let rounds := timeout.toNat + (← settling) + (← backlog) + 1
  Run.loop rounds (fun () => do
    if (← onDevice (elapsed start)) < timeout then
      match ← onDevice Device.read with
      | none => return .again ()
      | some b =>
        traceByte b
        modify fun e => { e with window := e.window.push b }
        match Scan.verdict (← get).window tag known with
        | some scan => return .finish scan
        | none => return .again ()
    else
      logWarn ">>> TIMEOUT >>>"
      return .finish .timedOut) ()

/-- Consume the stream up to and including `tag`. -/
def skipPast (tag : Bytes) (timeout : UInt32) : Run (Engine σ) Bool := do
  return (← awaitTag timeout (some tag) false) == .found

/-- **Transmit `bytes`, waiting for the transmitter to take all of them.** The clock is read only in
rounds in which nothing was taken. -/
def transmit (bytes : Bytes) : Attempt (Engine σ) Unit := ExceptT.mk do
  let start ← onDevice Device.millis
  let limit := (← get).timeouts.send
  let rounds := bytes.length + limit.toNat + (← settling) + 2
  Run.loop rounds (fun rest => do
    if rest.isEmpty then return .finish (.ok ())
    else
      match ← onDevice (Device.write rest) with
      | 0 =>
        if limit ≤ (← onDevice (elapsed start)) then return .finish (.error .timeout)
        else return .again rest
      | n + 1 => return .again (rest.drop (n + 1))) bytes

/-- Throw away everything that is waiting, and the receive errors with it. Returns the number of
bytes thrown away; with `warn` set they are logged. -/
def drain (warn : Bool) : Run (Engine σ) Nat := do
  let dropped ← Run.loop ((← backlog) + 1) (fun dropped => do
    if (← onDevice Device.available) = 0 then return .finish dropped
    else
      match ← onDevice Device.read with
      | none => return .finish dropped
      | some b =>
        if warn then traceByte b
        return .again (dropped + 1)) 0
  modify fun e => { e with dropped := e.dropped + dropped }
  if 0 < dropped ∧ warn then
    logWarn s!"Dirty characters in the serial buffer! > {dropped}"
  let errors ← onDevice Device.takeErrors
  if !errors.isEmpty then
    logWarn s!"UART receive errors: {errors.describe}"
  return dropped

/-- The number of bytes thrown away since the last call. -/
def takeDropped : Run (Engine σ) Nat :=
  modifyGet fun e => (e.dropped, { e with dropped := 0 })

/-- Transmit a line with its end. -/
def transmitLine (line : String) : Attempt (Engine σ) Unit := do
  let line ← liftResult (commandLine [line])
  transmit (utf8 (← liftResult (endLine line)))

/-- Throw away what is waiting, then transmit a formatted command. -/
def issue (line : String) : Attempt (Engine σ) Unit := do
  let _ ← lift (drain true)
  logDebug s!">> {line}"
  transmit (utf8 (← liftResult (endLine line)))

/-- **Send a command and wait for a known tag.** -/
def request (pieces : List String) (timeout : UInt32) : Attempt (Engine σ) Tag := do
  let line ← liftResult (commandLine pieces)
  issue line
  let scan ← lift (awaitTag timeout none true)
  logDebug s!"<< {scan.describe}"
  match scan with
  | .matched t => return t
  | _ => throw .timeout

/-- Send a command that has to be answered with `ok`. -/
def requestOk (pieces : List String) (timeout : UInt32) : Attempt (Engine σ) Unit := do
  match ← request pieces timeout with
  | .ok => return ()
  | t => throw (.rejected t)

/-- Read the field between `start` and `stop` of a response: its first `m` bytes. A response whose
field was seen is read to its end. -/
def readField (start stop : Bytes) (m : Nat) : Attempt (Engine σ) String := do
  let timeouts := (← get).timeouts
  match ← lift (awaitTag timeouts.expectStart (some start) true) with
  | .found =>
    match ← lift (awaitTag timeouts.expectEnd (some stop) true) with
    | .found =>
      let field := (← get).window.extract m stop.length
      let _ ← lift (awaitTag timeouts.drain none true)
      liftResult field
    | .matched t =>
      logWarn "End tag not found"
      throw (.notFound t)
    | .timedOut =>
      logWarn "End tag not found"
      throw .timeout
  | .matched t =>
    logDebug s!"No start tag found: {t.name}"
    throw (.notFound t)
  | .timedOut =>
    logWarn "No tag found"
    throw .timeout

/-- **Send a command and return the text between `start` and `stop` in its response**, cut to its
first `m` bytes. -/
def queryField (command : String) (start stop : Bytes) (m : Nat) :
    Attempt (Engine σ) String := do
  let line ← liftResult (commandLine [command])
  issue line
  let text ← readField start stop m
  logDebug s!"<< {text}"
  return text

/-- Read one byte, waiting up to `timeout` for it. -/
def awaitByte (timeout : UInt32) : Run (Engine σ) (Option UInt8) := do
  let start ← onDevice Device.millis
  let rounds := timeout.toNat + (← settling) + 1
  Run.loop rounds (fun () => do
    match ← onDevice Device.read with
    | some b => return .finish (some b)
    | none =>
      if timeout ≤ (← onDevice (elapsed start)) then return .finish none
      else return .again ()) ()

/-- Look at the next byte, waiting up to `timeout` for it. -/
def awaitPeek (timeout : UInt32) : Run (Engine σ) (Option UInt8) := do
  let start ← onDevice Device.millis
  let rounds := timeout.toNat + (← settling) + 1
  Run.loop rounds (fun () => do
    match ← onDevice Device.peek with
    | some b => return .finish (some b)
    | none =>
      if timeout ≤ (← onDevice (elapsed start)) then return .finish none
      else return .again ()) ()

end Engine

end EspWifi
