import EspWifi.At.Tag
import EspWifi.Modem.Packet
import EspWifi.Proofs.Text.Decimal

/-!
# Frames on the wire

A frame is what the module sends for one inbound packet: a header, the payload, and around them what
it may say besides.

* `Frame`: a frame, with its payload; `Frame.wire`: its bytes; `Frame.opening`: those before the payload.
* `Frame.fields`: the bytes of a header.
-/

namespace EspWifi

/-- One inbound packet, as the module sends it. -/
structure Frame where
  link : Fin 4
  /-- Address and port of the sender, if the module reports it. -/
  sender : Option (Ipv4 × UInt16)
  payload : Bytes
  payload_lt : payload.length < 65536
  /-- A line end comes before the header. -/
  spaced : Bool
  /-- The link was closed right after the payload, and the module says so. -/
  closed : Bool

namespace Frame

/-- What a header says of a sender. -/
def senderText : Option (Ipv4 × UInt16) → Bytes
  | none => []
  | some (ip, port) =>
    [ascii ',', ascii '"'] ++ utf8 ip.text ++ [ascii '"', ascii ','] ++ decimal port.toNat

/-- The header after its preamble, for any link and length. -/
def fields (link length : Nat) (sender : Option (Ipv4 × UInt16)) : Bytes :=
  decimal link ++ [ascii ','] ++ decimal length ++ senderText sender ++ [ascii ':']

/-- The notice that a link was closed. -/
def trailer (link : Fin 4) : Bytes :=
  decimal link ++ utf8 closedTrailer ++ utf8 lineEnd

/-- What comes before the header. -/
def gap (f : Frame) : Bytes := if f.spaced then utf8 lineEnd else []

/-- What comes after the payload. -/
def tail (f : Frame) : Bytes := if f.closed then trailer f.link else []

/-- **The bytes of a frame.** -/
def wire (f : Frame) : Bytes :=
  f.gap ++ utf8 packetPreamble ++ fields f.link f.payload.length f.sender ++ f.payload ++ f.tail

/-- The bytes of a frame before its payload. -/
def opening (f : Frame) : Bytes :=
  f.gap ++ utf8 packetPreamble ++ fields f.link f.payload.length f.sender

theorem wire_eq (f : Frame) : f.wire = f.opening ++ f.payload ++ f.tail := rfl

/-- The header of a frame, with `remaining` bytes of its payload to come. -/
def packet (f : Frame) (remaining : Nat) : Packet where
  link := f.link.val.toUInt8
  remaining := remaining.toUInt16
  remoteIp := f.sender.map Prod.fst
  remotePort := f.sender.elim 0 Prod.snd

end Frame

/-- An address goes over the wire octet by octet. -/
theorem utf8_text (ip : Ipv4) :
    utf8 ip.text = decimal ip.a.toNat ++ [ascii '.'] ++ decimal ip.b.toNat ++ [ascii '.'] ++
      decimal ip.c.toNat ++ [ascii '.'] ++ decimal ip.d.toNat := by
  have hdot : utf8 "." = [ascii '.'] := rfl
  show utf8 (toString ip.a ++ "." ++ toString ip.b ++ "." ++ toString ip.c ++ "." ++
    toString ip.d) = _
  simp only [utf8_append, hdot]
  rfl

end EspWifi
