import EspWifi.Text.Number

/-!
# Addresses

IPv4 addresses in dotted decimal notation, and MAC addresses in colon-separated hex.

* `Ipv4.text`, `Ipv4.ofText?`: dotted decimal, written and read.
* `Mac.ofText?`: a MAC address as the module prints it.
-/

namespace EspWifi

/-- An IPv4 address, most significant octet first. -/
structure Ipv4 where
  a : UInt8
  b : UInt8
  c : UInt8
  d : UInt8
  deriving DecidableEq

namespace Ipv4

/-- The address that stands for no address. -/
def unspecified : Ipv4 := ⟨0, 0, 0, 0⟩

/-- Dotted decimal. -/
def text (ip : Ipv4) : String := s!"{ip.a}.{ip.b}.{ip.c}.{ip.d}"

/-- An octet in decimal: one to three digits, without a leading zero unless it is zero. -/
def octet? (cs : List Char) : Option UInt8 :=
  if cs.isEmpty ∨ 3 < cs.length ∨ (1 < cs.length ∧ cs.head? = some '0') then none
  else ((readDigits 10 0 cs).filter (· ≤ 255)).map (·.toUInt8)

/-- **Exactly four octets between dots.** -/
def ofText? (s : String) : Option Ipv4 :=
  match splitAt '.' s.toList with
  | [a, b, c, d] => return ⟨← octet? a, ← octet? b, ← octet? c, ← octet? d⟩
  | _ => none

end Ipv4

/-- A MAC address, stored backwards: the octet printed first is the last one. -/
structure Mac where
  octets : Vector UInt8 6
  deriving DecidableEq

namespace Mac

/-- An octet in hex. -/
def octet? (cs : List Char) : Option UInt8 := (readUnsigned 16 255 cs).map (·.toUInt8)

/-- **Exactly six octets between colons.** -/
def ofText? (s : String) : Option Mac :=
  match splitAt ':' s.toList with
  | [a, b, c, d, e, f] =>
    return ⟨#v[← octet? f, ← octet? e, ← octet? d, ← octet? c, ← octet? b, ← octet? a]⟩
  | _ => none

end Mac

end EspWifi
