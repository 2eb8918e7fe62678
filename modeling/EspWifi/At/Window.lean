import EspWifi.At.Fault

/-!
# The window of a scan

A scan remembers the last `n` bytes it has read: enough to recognise every tag, and for the short
fields that are cut out between two tags.

* `bytes_push_suffix`, `length_bytes_push`: a push keeps the last bytes, as many as fit.
-/

namespace EspWifi

/-- The last `n` bytes of a stream, oldest first. -/
structure Window (n : Nat) where
  bytes : Bytes
  length_le : bytes.length ≤ n

namespace Window

variable {n : Nat}

/-- The window before anything has been read. -/
def empty : Window n := ⟨[], Nat.zero_le n⟩

def length (w : Window n) : Nat := w.bytes.length

def isEmpty (w : Window n) : Bool := w.bytes.isEmpty

/-- **Append a byte and keep the last `n`.** -/
def push (w : Window n) (b : UInt8) : Window n where
  bytes := (w.bytes ++ [b]).drop (w.bytes.length + 1 - n)
  length_le := by simp; omega

theorem bytes_push_suffix (w : Window n) (b : UInt8) : (w.push b).bytes <:+ w.bytes ++ [b] :=
  List.drop_suffix _ _

theorem length_bytes_push (w : Window n) (b : UInt8) :
    (w.push b).bytes.length = min n (w.bytes.length + 1) := by
  simp only [push, List.length_drop, List.length_append, List.length_cons, List.length_nil]
  omega

/-- The last bytes read are exactly `tag`. -/
def endsWith (w : Window n) (tag : Bytes) : Bool := w.bytes.endsWith tag

/-- **The text in the window without its last `skip` bytes**, cut to its first `m` bytes. -/
def extract (w : Window n) (m skip : Nat) : Except Fault String :=
  match text? ((w.bytes.take (w.bytes.length - skip)).take m) with
  | some s => .ok s
  | none => .error .parse

end Window

end EspWifi
