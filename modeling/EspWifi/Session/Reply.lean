import EspWifi.Net.Client

/-!
# Answers

What an operation of a session answers, over all operations.
-/

namespace EspWifi

/-- An answer. -/
inductive Reply where
  /-- The operation has ended; there is nothing to tell. -/
  | done
  /-- The operation has succeeded; there is nothing else to tell. -/
  | ok
  | fault (f : Fault)
  | flag (on : Bool)
  | number (n : Nat)
  | integer (i : Option Int)
  | text (s : String)
  | byte (b : Option UInt8)
  | bytes (b : Bytes)
  /-- Bytes that were read into a buffer. -/
  | buffer (b : Bytes)
  /-- A payload byte, and whether the link was closed after it. -/
  | received (byte : UInt8) (closed : Bool)
  | window (length : Nat) (empty : Bool)
  | tag (t : Tag)
  | scan (s : Scan)
  | packet (p : Option Packet)
  | timeouts (t : Timeouts)
  | status (s : WifiStatus)
  | mode (m : Option WifiMode)
  | tcp (s : TcpState)
  | mac (m : Mac)
  | address (a : Option Ipv4)
  | networks (ns : List Network)
  | network (n : Option Network)
  | link (link : Option UInt8)
  | links (links : List UInt8)

namespace Reply

/-- The answer of an operation that may fail. -/
def ofExcept {α : Type} (f : α → Reply) : Except Fault α → Reply
  | .ok a => f a
  | .error e => fault e

/-- The answer of an operation that may fail and has nothing else to tell. -/
def ofOutcome : Except Fault Unit → Reply := ofExcept fun _ => ok

end Reply

end EspWifi
