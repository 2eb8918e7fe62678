import EspWifi.At.Integer
import EspWifi.Modem.Address

/-!
# Inbound packets

The module announces received data with a header that names the link, the number of payload bytes
and, if it was told to, the sender. The payload follows the colon that ends the header.

* `Packet`: a header, with the payload bytes not read yet.
* `Packet.read`: read what follows the preamble of a header, colon included.
-/

namespace EspWifi

/-- The header of the packet that is being read. -/
structure Packet where
  link : UInt8 := 0
  /-- Payload bytes that are still in the stream. -/
  remaining : UInt16 := 0
  remoteIp : Option Ipv4 := none
  remotePort : UInt16 := 0
  deriving DecidableEq

namespace Packet

/-- A packet is drained when all of its payload has been read. -/
def isDrained (p : Packet) : Bool := p.remaining == 0

/-- A packet belongs to its own link; no link in particular stands for any. -/
def isFor (p : Packet) (link : Option UInt8) : Bool :=
  match link with
  | none => true
  | some id => id == p.link

/-- A number in the range of a byte. -/
def byte? (i : Int) : Option UInt8 := if 0 ≤ i ∧ i < 256 then some i.toNat.toUInt8 else none

/-- A number in the range of two bytes. -/
def word? (i : Int) : Option UInt16 := if 0 ≤ i ∧ i < 65536 then some i.toNat.toUInt16 else none

variable {σ : Type} [Device σ]

/-- The next number in the stream, if it is in the range of a byte. -/
def readByte : OptionT (Run (Engine σ)) UInt8 := do
  let i ← OptionT.mk Engine.readInt
  OptionT.mk (pure (byte? i))

/-- The next number in the stream, if it is in the range of two bytes. -/
def readWord : OptionT (Run (Engine σ)) UInt16 := do
  let i ← OptionT.mk Engine.readInt
  OptionT.mk (pure (word? i))

/-- The address and port of the sender. -/
def readSender : OptionT (Run (Engine σ)) (Ipv4 × UInt16) := do
  let a ← readByte
  let b ← readByte
  let c ← readByte
  let d ← readByte
  let port ← readWord
  return (⟨a, b, c, d⟩, port)

/-- **Read a header after its preamble, and the colon that ends it.** `none` if a field is missing
or out of range. -/
def read : OptionT (Run (Engine σ)) Packet := do
  let timeout ← OptionT.lift Engine.fieldTimeout
  let link ← readByte
  let remaining ← readWord
  let next ← OptionT.mk (Engine.awaitPeek timeout)
  let packet ←
    if next = ascii ',' then do
      let (ip, port) ← readSender
      pure { link, remaining, remoteIp := some ip, remotePort := port : Packet }
    else pure { link, remaining : Packet }
  let stop ← OptionT.mk (Engine.awaitByte timeout)
  if stop = ascii ':' then return packet else failure

end Packet

end EspWifi
