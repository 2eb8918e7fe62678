import EspWifi.Bytes
import EspWifi.Log
import EspWifi.Link.ReceiveErrors

/-!
# The device behind a driver

A driver sees its hardware as a byte link to the module and a millisecond clock of 32 bits, plus a
place for log records. `Device σ` is that view of a hardware state `σ`; nothing is assumed of it, so
what holds for every device holds for every behaviour of the module, the line and the clock.
-/

namespace EspWifi

/-- A byte link and a clock in the state `σ`. -/
class Device (σ : Type) where
  /-- How many received bytes wait to be read. -/
  available : Run σ Nat
  /-- Take the next received byte, without waiting for one. -/
  read : Run σ (Option UInt8)
  /-- Look at the next received byte. -/
  peek : Run σ (Option UInt8)
  /-- Offer bytes for transmission; the answer is how many of them were accepted. -/
  write : Bytes → Run σ Nat
  /-- The receive errors latched since the last call. -/
  takeErrors : Run σ ReceiveErrors
  /-- The clock, in milliseconds, which wraps around. -/
  millis : Run σ UInt32
  /-- Wait for a number of milliseconds. -/
  delay : UInt32 → Run σ Unit
  /-- Write a log record. -/
  record : Level → String → Run σ Unit
  /-- A bound on the bytes the link can still hand out if nothing more is sent to the module. -/
  backlog : σ → Nat
  /-- A bound on the looks at the link, with time moving between them, after which it does nothing
  new of its own: what was on its way is there, and the transmitter accepts what it will accept. -/
  settling : σ → Nat

variable {σ : Type} [Device σ]

instance : MonadLog (EStateM Halt σ) where
  record := Device.record

/-- Milliseconds since the clock showed `start`. The difference is taken modulo `2 ^ 32`, so a clock
that wrapped around in between does no harm. -/
def elapsed (start : UInt32) : Run σ UInt32 := do return (← Device.millis) - start

/-- Wait by reading the clock until `ms` milliseconds have passed. -/
def busyWait (ms : UInt32) : Run σ Unit := do
  let start ← Device.millis
  Run.loop (ms.toNat + 1) (fun () => do
    if (← elapsed start) < ms then return .again () else return .finish ()) ()

end EspWifi
