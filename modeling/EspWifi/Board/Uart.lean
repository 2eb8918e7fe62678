import EspWifi.Link.ByteQueue

/-!
# The serial link to the module

An interrupt moves bytes between the registers of the serial port and two queues; the foreground
touches the queues only. Each foreground call and each interrupt is one step, during which nothing
else happens to the link.

* `Uart.interrupt`: what the interrupt does with what the hardware reports.
* `Uart.write`: the foreground side of the transmitter.
-/

namespace EspWifi

/-- Room in each of the two queues. -/
def uartQueueSize : Nat := 256

/-- What the hardware reports when the interrupt runs. -/
structure UartStatus where
  errors : ReceiveErrors
  /-- The received byte, if there is one. -/
  received : Option UInt8
  /-- The transmit register can take a byte. -/
  txReady : Bool

/-- The two queues, and which events call the interrupt. -/
structure Uart where
  rx : ByteQueue uartQueueSize := .empty
  tx : ByteQueue uartQueueSize := .empty
  /-- Received bytes call the interrupt. -/
  rxInterrupt : Bool := false
  /-- An empty transmit register calls the interrupt. -/
  txInterrupt : Bool := false

namespace Uart

/-- Empty both queues and listen. -/
def activate (u : Uart) : Uart :=
  { u with rx := u.rx.clear, tx := u.tx.clear, rxInterrupt := true }

/-- Take the oldest received byte. -/
def read (u : Uart) : Option UInt8 × Uart :=
  let (b, rx) := u.rx.pop
  (b, { u with rx })

/-- Take the receive errors. -/
def takeErrors (u : Uart) : ReceiveErrors × Uart :=
  let (e, rx) := u.rx.takeErrors
  (e, { u with rx })

/-- **Queue bytes for transmission, up to the first that does not fit.** As long as something is
queued, an empty transmit register calls the interrupt. -/
def write (u : Uart) (bytes : Bytes) : Nat × Uart :=
  let (n, tx) := u.tx.fill bytes
  (n, { u with tx, txInterrupt := u.txInterrupt || !tx.isEmpty })

/-- What the interrupt does with the receiver: latch the errors, queue the byte. -/
def receive (u : Uart) (s : UartStatus) : Uart :=
  let rx := u.rx.flag s.errors
  match s.received with
  | none => { u with rx }
  | some b => { u with rx := (rx.push b).2 }

/-- What the interrupt does with the transmitter: hand over the next byte, or stop being called if
there is none. -/
def refill (u : Uart) (s : UartStatus) : Option UInt8 × Uart :=
  if s.txReady && u.txInterrupt then
    match u.tx.pop with
    | (some b, tx) => (some b, { u with tx })
    | (none, _) => (none, { u with txInterrupt := false })
  else (none, u)

/-- **The interrupt.** Returns the byte for the transmit register, if there is one. -/
def interrupt (u : Uart) (s : UartStatus) : Option UInt8 × Uart := (u.receive s).refill s

end Uart

end EspWifi
