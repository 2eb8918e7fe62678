import EspWifi.Board.Pins
import EspWifi.Board.Uart
import EspWifi.Link.Device
import EspWifi.Link.Schedule

/-!
# The board

The hardware as the program meets it: a tick interrupt that counts milliseconds, a serial port to
the module with one data register in each direction, a console, and pins. Time passes in cycles of
one millisecond, each time the foreground leaves a critical section or sleeps.

* `Board.pass`: what happens in a cycle.
* `Board.cycle`: a cycle, at the end of which the supply may be cut.
* The instances make the board a `Device` and give it `Pins`.
-/

namespace EspWifi

/-- What the program does to the hardware around it. -/
inductive HardwareEvent where
  | systemClock (hz : Nat)
  | tickSource
  | tickReload (n : Nat)
  | tickClear
  | tickCounter
  | tickInterrupt
  | alternate (pin : Pin)
  | pullUp (pin : Pin)
  | output (pin : Pin)
  | level (pin : Pin) (high : Bool)
  /-- The serial port to the module is opened. -/
  | openLink (baud : Nat)
  /-- The serial port of the console is opened. -/
  | openConsole (baud : Nat)
  | flushConsole

/-- Bytes the module sends in one piece, with the errors the line adds to each of them. -/
structure Burst where
  bytes : Bytes
  errors : ReceiveErrors := .empty

/-- An answer of the module: when it has heard the bytes `heard`, it sends the bursts. -/
structure Rule where
  heard : Bytes
  bursts : List (Nat × Burst)

/-- The registers of the serial port to the module. -/
structure Registers where
  errors : ReceiveErrors := .empty
  /-- The byte that was received and not read yet. -/
  received : Option UInt8 := none
  /-- The byte that waits to be sent. -/
  sending : Option UInt8 := none

/-- What the line does to the registers with one byte: a byte that comes before the last one was
read is lost. -/
def Registers.latch (r : Registers) (byte : UInt8) : Registers :=
  match r.received with
  | none => { r with received := some byte }
  | some _ => { r with errors := r.errors ∪ { overrun := true } }

/-- The board, the line to the module, and the module at its other end. -/
structure Board where
  /-- Milliseconds since power-up. -/
  time : Nat := 0
  /-- When the supply is cut. -/
  limit : Nat
  /-- Bytes the line can send in a millisecond. -/
  rate : Nat := 11
  /-- The tick interrupt is enabled. -/
  ticking : Bool := false
  /-- Milliseconds counted by the tick interrupt. -/
  millis : UInt32 := 0
  uart : Uart := {}
  /-- The interrupt of the serial port may run. -/
  unmasked : Bool := false
  registers : Registers := {}
  /-- What the module has sent and has not arrived yet. -/
  arrivals : Schedule Burst := {}
  /-- Answers the module still has to give, in order. -/
  script : List Rule := []
  /-- What the module has heard since its last answer, newest byte first. -/
  heard : Bytes := []
  verbosity : Verbosity := none
  /-- The logger has a console. -/
  hasConsole : Bool := false
  /-- Events and when they happened, newest first. -/
  events : List (Nat × HardwareEvent) := []
  /-- Bytes written to the console, newest first. -/
  console : Bytes := []
  /-- Bytes that left for the module, newest first. -/
  wire : Bytes := []

namespace Board

/-- Run the interrupt of the serial port on its registers. -/
def interrupt (b : Board) : Board :=
  let r := b.registers
  let (out, uart) := b.uart.interrupt
    { errors := r.errors, received := r.received, txReady := r.sending.isNone }
  { b with
    uart := uart
    registers := { errors := .empty, received := none, sending := out.or r.sending } }

/-- The line reports an event of the receiver, which calls the interrupt if it may run. -/
def signalReceive (b : Board) : Board :=
  if b.unmasked && b.uart.rxInterrupt then b.interrupt else b

/-- A byte arrives. -/
def receiveByte (errors : ReceiveErrors) (b : Board) (byte : UInt8) : Board :=
  let r := b.registers.latch byte
  signalReceive { b with registers := { r with errors := r.errors ∪ errors } }

/-- A burst arrives, byte by byte. One without bytes brings its errors only. -/
def receiveBurst (b : Board) (burst : Burst) : Board :=
  match burst.bytes with
  | [] =>
    signalReceive
      { b with registers := { b.registers with errors := b.registers.errors ∪ burst.errors } }
  | bytes => bytes.foldl (receiveByte burst.errors) b

/-- All that is due by now arrives. -/
def receiveDue (b : Board) : Board :=
  let (due, rest) := b.arrivals.due b.time
  due.foldl receiveBurst { b with arrivals := rest }

/-- Schedule bursts from now on. -/
def schedule (b : Board) (bursts : List (Nat × Burst)) : Board :=
  { b with arrivals := b.arrivals.addAll b.time bursts }

/-- The module gives its next answer if it has heard what it was waiting for. -/
def answer (b : Board) : Board :=
  match b.script with
  | [] => b
  | rule :: rest =>
    if rule.heard.reverse.isPrefixOf b.heard then
      { b with script := rest, heard := [] }.schedule rule.bursts
    else b

/-- The byte that waits to be sent, if there is one, leaves for the module. -/
def sendByte (b : Board) : Board :=
  match b.registers.sending with
  | none => b
  | some byte =>
    answer { b with
      registers := { b.registers with sending := none }
      wire := byte :: b.wire
      heard := byte :: b.heard }

/-- A transmit slot: the line is ready for a byte, which calls the interrupt if it may run. -/
def transmitSlot (b : Board) : Board :=
  let b := b.sendByte
  if b.unmasked && b.uart.txInterrupt then b.interrupt else b

/-- The transmit slots of a millisecond. -/
def transmitSlots : Nat → Board → Board
  | 0, b => b
  | n + 1, b => transmitSlots n b.transmitSlot

/-- A millisecond passes. -/
def advance (b : Board) : Board :=
  { b with time := b.time + 1, millis := if b.ticking then b.millis + 1 else b.millis }

/-- **A cycle**: time advances, the line delivers what is due, the transmitter gets its slots. -/
def pass (b : Board) : Board :=
  let b := b.advance.receiveDue
  transmitSlots b.rate b

/-- A cycle, at the end of which the supply is cut if its time has come. -/
def cycle : Run Board Unit := do
  modify pass
  let b ← get
  if b.limit ≤ b.time then throw .powerOff else return ()

/-- A step that nothing interrupts, and the cycle that follows it. -/
def critical {α : Type} (f : Board → α × Board) : Run Board α := do
  let a ← modifyGet f
  cycle
  return a

/-- Note an event. -/
def note (e : HardwareEvent) : Run Board Unit :=
  modify fun b => { b with events := (b.time, e) :: b.events }

/-- Write bytes to the console. -/
def print (bytes : Bytes) : Run Board Unit :=
  modify fun b => { b with console := bytes.reverse ++ b.console }

/-- Sleep from cycle to cycle until `ms` milliseconds have been counted. -/
def sleep (ms : UInt32) : Run Board Unit := do
  let b ← get
  Run.loop (b.limit + 1) (fun () => do
    if (← get).millis - b.millis < ms then
      cycle
      return .again ()
    else return .finish ()) ()

/-- The line of a log record on the console. -/
def logLine (level : Level) (message : String) : Bytes :=
  utf8 ("[" ++ level.name ++ "] " ++ message ++ "\r\n")

/-- Write a log record to the console, unless it is more detailed than the logger prints. -/
def log (level : Level) (message : String) : Run Board Unit := do
  if (← get).verbosity.keeps level then
    if (← get).hasConsole then print (logLine level message)
    cycle

/-- Flush the console of the logger. -/
def flushLog : Run Board Unit := do
  if (← get).hasConsole then note .flushConsole
  cycle

/-- Looks at the link until the supply is cut: each of them takes a cycle. -/
def looksLeft (b : Board) : Nat := b.limit + 1

instance : Device Board where
  available := critical fun b => (b.uart.rx.length, b)
  read := critical fun b =>
    let (byte, uart) := b.uart.read
    (byte, { b with uart })
  peek := critical fun b => (b.uart.rx.peek, b)
  write bytes := critical fun b =>
    let (n, uart) := b.uart.write bytes
    (n, { b with uart })
  takeErrors := critical fun b =>
    let (errors, uart) := b.uart.takeErrors
    (errors, { b with uart })
  millis := do return (← get).millis
  delay := sleep
  record := log
  backlog := looksLeft
  settling := looksLeft

instance : Pins Board where
  makeOutput pin := note (.output pin)
  drive pin high := note (.level pin high)

/-- Configure the system clock, and the tick interrupt to run once in a millisecond. -/
def startClock (mhz : Nat) : Run Board Unit := do
  let hz := mhz * 1000000
  note (.systemClock hz)
  note .tickSource
  note (.tickReload (hz / 1000 - 1))
  note .tickClear
  note .tickCounter
  note .tickInterrupt
  modify fun b => { b with ticking := true }

/-- Configure all pins in use. -/
def configurePins : Run Board Unit := do
  note (.alternate .pa2)
  note (.alternate .pa3)
  note (.pullUp .pa3)
  note (.output .pa8)
  note (.output .pa10)
  note (.alternate .pd8)
  note (.alternate .pd9)
  note (.output .pb0)

/-- Open the console and let the logger print on it. -/
def startLogger (baud : Nat) (verbosity : Verbosity) : Run Board Unit := do
  note (.openConsole baud)
  critical fun b => ((), { b with hasConsole := true })
  modify fun b => { b with verbosity := verbosity }

/-- Open the serial port to the module, with empty queues and its interrupt enabled. -/
def openLink (baud : Nat) : Run Board Unit := do
  note (.openLink baud)
  critical fun b => ((), { b with uart := b.uart.activate })
  modify fun b => { b with unmasked := true }
  logDebug "ESP UART ready"

end Board

end EspWifi
