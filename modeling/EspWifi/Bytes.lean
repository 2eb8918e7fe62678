/-!
# Byte strings

Everything on the wire is a list of bytes, in the order of transmission. Text travels as UTF-8.

* `utf8`, `text?`: text as bytes, and bytes as text where they are valid UTF-8.
* `Bytes.endsWith`: the test a response scan rests on.
-/

namespace EspWifi

/-- Bytes in the order in which they are sent. -/
abbrev Bytes := List UInt8

/-- The UTF-8 bytes of a text. -/
def utf8 (s : String) : Bytes := s.toUTF8.data.toList

/-- The text whose UTF-8 bytes these are, if they are valid UTF-8. -/
def text? (b : Bytes) : Option String := String.fromUTF8? ⟨b.toArray⟩

namespace Bytes

/-- **A tag matches the end of `b`** when it is not empty and its bytes are the last ones. -/
def endsWith (b tag : Bytes) : Bool := !tag.isEmpty && tag.isSuffixOf b

end Bytes

/-- The byte of an ASCII character. -/
def ascii (c : Char) : UInt8 := c.toNat.toUInt8

/-- The ASCII digits `0` to `9`. -/
def isDigitByte (b : UInt8) : Bool := ascii '0' ≤ b && b ≤ ascii '9'

end EspWifi
