import EspWifi.Net.Wifi

/-!
# Datagram sockets

A datagram socket listens on a local port over one link. Where a datagram goes is said with each
send, so one link serves any number of peers.
-/

namespace EspWifi

/-- Longest name of a host to send to, in bytes. -/
def maxHostLength : Nat := 64

/-- A datagram socket. -/
structure Udp where
  link : Option UInt8 := none
  /-- The local port it listens on. -/
  localPort : UInt16 := 0
  /-- Where datagrams go. -/
  remoteHost : String := ""
  remotePort : UInt16 := 0
  deriving DecidableEq

namespace Udp

variable {σ : Type} [Device σ]

/-- **Listen on a local port**, over the highest free link. -/
def listen (u : Udp) (port : UInt16) : Attempt (Wifi σ) Udp := do
  match ← lift Wifi.freeLink with
  | none =>
    logError "No socket available"
    throw .noFreeLink
  | some link =>
    tryDriver (Driver.openLink "0" port link .udp)
    Wifi.claim link
    Wifi.setPort link port
    logDebug s!"UDP link {link} on port {port}"
    return { u with link := some link, localPort := port }

/-- Bytes left in the current datagram, or in the next one if that is drained. -/
def available (u : Udp) : Run (Wifi σ) UInt16 := do
  match u.link with
  | none => return 0
  | some link => onDriver (Driver.available (some link))

/-- The link of the socket, or else a free one. -/
def linkOrFree (u : Udp) : Attempt (Wifi σ) UInt8 := do
  match u.link with
  | some link => return link
  | none =>
    match ← lift Wifi.freeLink with
    | some link => return link
    | none => throw .noFreeLink

/-- **Set where the following datagrams go.** A socket without a link takes a free slot. -/
def setRemote (u : Udp) (host : String) (port : UInt16) : Attempt (Wifi σ) Udp := do
  if maxHostLength < host.utf8ByteSize then throw .commandTooLong
  else
    let link ← u.linkOrFree
    Wifi.claim link
    return { u with link := some link, remoteHost := host, remotePort := port }

/-- Send a datagram to where the socket points. -/
def send (u : Udp) (data : Bytes) : Attempt (Wifi σ) Nat := do
  match u.link with
  | none => throw .invalidLink
  | some link =>
    tryDriver (Driver.sendDatagram link u.remoteHost u.remotePort data)
    return data.length

/-- The next byte, read or peeked. -/
def getByte (u : Udp) (peek : Bool) : Run (Wifi σ) (Option UInt8) := do
  if (← u.available) = 0 then return none
  else
    match u.link with
    | none => return none
    | some link =>
      match ← (tryDriver (Driver.receiveByte link peek)).run with
      | .ok received => return some received.byte
      | .error _ => return none

/-- Read one byte. -/
def read (u : Udp) : Run (Wifi σ) (Option UInt8) := u.getByte false

/-- Look at the next byte. -/
def peek (u : Udp) : Run (Wifi σ) (Option UInt8) := u.getByte true

/-- Read up to `n` bytes of the current datagram, none if nothing is waiting. -/
def readUpTo (u : Udp) (n : Nat) : Attempt (Wifi σ) Bytes := do
  if (← lift u.available) = 0 then return []
  else
    match u.link with
    | none => throw .invalidLink
    | some link => tryDriver (Driver.receive link n)

/-- Read and throw away up to `n` bytes. -/
def skip (u : Udp) : Nat → Run (Wifi σ) Unit
  | 0 => return ()
  | n + 1 => do
    match ← u.read with
    | none => return ()
    | some _ => u.skip n

/-- Throw away the rest of the current datagram. -/
def flush (u : Udp) : Run (Wifi σ) Unit := do u.skip (← u.available).toNat

/-- Throw away what is waiting, close the link and free its slot. -/
def close (u : Udp) : Run (Wifi σ) Udp := do
  match u.link with
  | none => return u
  | some link =>
    u.flush
    Wifi.closeLink link
    return { u with link := none }

end Udp

end EspWifi
