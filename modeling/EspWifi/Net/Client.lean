import EspWifi.Net.Wifi

/-!
# Clients

A client is a handle on a link, or on none. Handles may be copied freely; an operation that binds or
unbinds a handle returns the handle it leaves behind.

* `Client.connect`: open a link.
* `Client.read`, `Client.readUpTo`, `Client.flush`: take received data.
* `Client.send`, `Client.sendText`: send data; a failure closes the link.
* `Client.close`, `Client.status`: close a link, or learn that it is closed.
-/

namespace EspWifi

/-- A handle on a link. -/
structure Client where
  link : Option UInt8 := none
  deriving DecidableEq

namespace Client

variable {σ : Type} [Device σ]

/-- **Open a link to a host on the highest free slot.** The slot is taken once the module has
accepted the link; the answer is a handle on it. -/
def connect (host : String) (port : UInt16) (transport : Transport) : Attempt (Wifi σ) Client := do
  logInfo s!"Connecting to {host}"
  match ← lift Wifi.freeLink with
  | none =>
    logError "No socket available"
    throw .noFreeLink
  | some link =>
    tryDriver (Driver.openLink host port link transport)
    Wifi.claim link
    return ⟨some link⟩

/-- Close the link and free its slot. Nothing happens to an unbound handle. -/
def close (c : Client) : Run (Wifi σ) Client := do
  match c.link with
  | none => return c
  | some link =>
    logInfo s!"Disconnecting {link}"
    Wifi.closeLink link
    return ⟨none⟩

/-- Pause after a failed send before the link is closed, in milliseconds. -/
def writeFailDelay : UInt32 := 4000

/-- Send something on a link; if that fails, close the link after a pause. -/
def sendOrClose (c : Client) (link : UInt8) (send : Attempt (Driver σ) Unit) (length : Nat) :
    Run (Wifi σ) (Except Fault Nat × Client) := do
  match ← (tryDriver send).run with
  | .ok () => return (.ok length, c)
  | .error f =>
    logError s!"Failed to write to socket {link}"
    Wifi.delay writeFailDelay
    return (.error f, ← c.close)

/-- **Send bytes.** A send that fails closes the link. -/
def send (c : Client) (data : Bytes) : Run (Wifi σ) (Except Fault Nat × Client) := do
  match c.link with
  | none => return (.error .invalidLink, c)
  | some link =>
    if data.isEmpty then return (.ok 0, c)
    else c.sendOrClose link (Driver.sendBytes link data) data.length

/-- **Send a text**, followed by a line end if `crlf` is set. A send that fails closes the link. -/
def sendText (c : Client) (text : String) (crlf : Bool) :
    Run (Wifi σ) (Except Fault Nat × Client) := do
  match c.link with
  | none => return (.error .invalidLink, c)
  | some link =>
    if text.isEmpty ∧ !crlf then return (.ok 0, c)
    else
      c.sendOrClose link (Driver.sendText link text crlf)
        (text.utf8ByteSize + if crlf then lineEnd.utf8ByteSize else 0)

/-- Payload bytes waiting for this link. -/
def available (c : Client) : Run (Wifi σ) UInt16 := do
  match c.link with
  | none => return 0
  | some link => onDriver (Driver.available (some link))

/-- The next byte, read or peeked. A close that is seen after it releases the slot. -/
def getByte (c : Client) (peek : Bool) : Run (Wifi σ) (Option UInt8 × Client) := do
  if (← c.available) = 0 then return (none, c)
  else
    match c.link with
    | none => return (none, c)
    | some link =>
      match ← (tryDriver (Driver.receiveByte link peek)).run with
      | .error _ => return (none, c)
      | .ok received =>
        if received.closed then
          Wifi.release link
          return (some received.byte, ⟨none⟩)
        else return (some received.byte, c)

/-- Read one byte. -/
def read (c : Client) : Run (Wifi σ) (Option UInt8 × Client) := c.getByte false

/-- Look at the next byte. -/
def peek (c : Client) : Run (Wifi σ) (Option UInt8 × Client) := c.getByte true

/-- Read up to `n` bytes, none if nothing is waiting. -/
def readUpTo (c : Client) (n : Nat) : Attempt (Wifi σ) Bytes := do
  if (← lift c.available) = 0 then return []
  else
    match c.link with
    | none => throw .invalidLink
    | some link => tryDriver (Driver.receive link n)

/-- Read byte by byte until there is none. -/
def readAll (c : Client) : Run (Wifi σ) (Bytes × Client) := do
  Run.loop (Device.backlog (← get).device + 1) (fun (bytes, c) => do
    match ← c.read with
    | (none, c) => return .finish (bytes.reverse, c)
    | (some b, c) => return .again (b :: bytes, c)) ([], c)

/-- **Throw away what is waiting.** Gives up, with the answer `false`, when data is still arriving
after `maxWait` milliseconds. -/
def flush (c : Client) (maxWait : UInt32) : Run (Wifi σ) (Bool × Client) := do
  let start ← Wifi.onDevice Device.millis
  let rounds := Device.backlog (← get).device + 2
  Run.loop rounds (fun c => do
    if (← c.available) = 0 then return .finish (true, c)
    else if maxWait < (← Wifi.onDevice (elapsed start)) then return .finish (false, c)
    else
      let (_, c) ← c.read
      return .again c) c

/-- **State of the link.** A link that has no data and is not listed by the module is given up. -/
def status (c : Client) : Run (Wifi σ) (TcpState × Client) := do
  match c.link with
  | none => return (.closed, c)
  | some link =>
    if 0 < (← onDriver (Driver.available (some link))) then return (.established, c)
    else
      match ← (tryDriver (Driver.isListed link)).run with
      | .ok true => return (.established, c)
      | _ =>
        Wifi.release link
        return (.closed, ⟨none⟩)

/-- Is the link open? -/
def connected (c : Client) : Run (Wifi σ) (Bool × Client) := do
  let (state, c) ← c.status
  return (state == .established, c)

end Client

end EspWifi
