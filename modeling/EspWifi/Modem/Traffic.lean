import EspWifi.Modem.Driver

/-!
# Links and their data

Inbound data is noticed only when it is asked for: `Driver.available` reads the header of a packet
when bytes are waiting, and `Driver.receiveByte` hands out its payload one byte at a time. When the
remote side closes a link, the module says so right after the last byte of a packet.

* `Driver.openLink`, `Driver.closeLink`, `Driver.listen`: open and close links.
* `Driver.available`, `Driver.receiveByte`, `Driver.receive`: inbound packets.
* `Driver.sendBytes`, `Driver.sendText`, `Driver.sendDatagram`: outbound payload.
-/

namespace EspWifi.Driver

variable {σ : Type} [Device σ]

/-- Listen on a TCP port. -/
def listen (port : UInt16) : Attempt (Driver σ) Unit := do
  logDebug s!"> start_server {port}"
  command ["AT+CIPSERVER=1,", toString port] (← lift timeouts).command

/-- **Open a link to a host.** A UDP link listens on `port`; where its datagrams go is said
with each of them. -/
def openLink (host : String) (port : UInt16) (link : UInt8) (transport : Transport) :
    Attempt (Driver σ) Unit := do
  logDebug s!"> start_client {host}:{port}"
  let timeout := (← lift timeouts).connect
  let start := ["AT+CIPSTART=", toString link]
  match transport with
  | .tcp => command (start ++ [",\"TCP\",\"", host, "\",", toString port]) timeout
  | .ssl =>
    lift (setUp "AT+CIPSSLSIZE=4096")
    command (start ++ [",\"SSL\",\"", host, "\",", toString port]) timeout
  | .udp => command (start ++ [",\"UDP\",\"", host, "\",0,", toString port, ",2"]) timeout

/-- Close a link. -/
def closeLink (link : UInt8) : Attempt (Driver σ) Unit := do
  logDebug s!"> stop_client {link}"
  command ["AT+CIPCLOSE=", toString link] (← lift timeouts).close

/-- Forget the packet that is being read. -/
def forgetPacket : Run (Driver σ) Unit := modify fun d => { d with packet := {} }

/-- Forget the packet that is being read if waiting bytes were thrown away since: its payload was
among them, so the number of bytes that remain no longer says anything about the stream. -/
def forgetStalePacket : Run (Driver σ) Unit := do
  let dropped ← onEngine Engine.takeDropped
  let packet := (← get).packet
  if 0 < dropped ∧ !packet.isDrained then
    logWarn s!"Packet on link {packet.link} lost {packet.remaining} unread bytes"
    forgetPacket

/-- The payload bytes of the current packet, if it is for `link`. -/
def pending (link : Option UInt8) : Run (Driver σ) UInt16 := do
  let packet := (← get).packet
  return if packet.isFor link then packet.remaining else 0

/-- Look for the next packet if bytes are waiting. Returns whether a header was read. -/
def nextPacket : Run (Driver σ) Bool := do
  if (← onEngine (onDevice Device.available)) = 0 then return false
  else if ← onEngine (Engine.skipPast (utf8 packetPreamble) (← timeouts).field) then
    match ← onEngine Packet.read.run with
    | some packet =>
      logDebug s!"Data packet {packet.link} {packet.remaining}"
      modify fun d => { d with packet := packet }
      return true
    | none =>
      logWarn "Malformed +IPD header"
      forgetPacket
      return false
  else return false

/-- **Payload bytes that are waiting for `link`**, or for any link if none is given. The next header
is read only when the current packet is drained, so a packet for one link holds up the others. -/
def available (link : Option UInt8) : Run (Driver σ) UInt16 := do
  forgetStalePacket
  if (← get).packet.isDrained then
    if ← nextPacket then pending link else return 0
  else pending link

/-- A payload byte, and whether the link was closed right after it. -/
structure Received where
  byte : UInt8
  closed : Bool

/-- The payload did not arrive: forget its packet. -/
def giveUpPacket : Run (Driver σ) Unit := do
  logError s!"TIMEOUT: {(← get).packet.remaining}"
  forgetPacket

/-- Count a payload byte as read. -/
def countByte : Run (Driver σ) Unit :=
  modify fun d => { d with packet := { d.packet with remaining := d.packet.remaining - 1 } }

/-- Look for the notice that the link was closed, after the last byte of a packet. -/
def sawClose (link : UInt8) : Run (Driver σ) Bool := do
  delay 5
  let next ← onEngine (onDevice Device.peek)
  if next = some (ascii '0' + link) ∨ next = some (ascii ',') then
    if !(← onEngine (Engine.skipPast (utf8 closedTrailer) (← timeouts).closed)) then
      logError "Tag CLOSED not found"
    logDebug "Connection closed"
    return true
  else return false

/-- **Read or peek the next payload byte of `link`.** If it does not arrive, the packet is
forgotten. A peek leaves the notice of a close to the read that follows. -/
def receiveByte (link : UInt8) (peek : Bool) : Attempt (Driver σ) Received := do
  lift forgetStalePacket
  let packet := (← get).packet
  if link ≠ packet.link ∨ packet.isDrained then throw .invalidLink
  else
    let timeout := (← lift timeouts).data
    let byte ← lift (onEngine (if peek then Engine.awaitPeek timeout else Engine.awaitByte timeout))
    match byte with
    | none =>
      lift giveUpPacket
      throw .timeout
    | some byte =>
      if peek then return ⟨byte, false⟩
      else
        lift countByte
        if (← get).packet.isDrained then return ⟨byte, ← lift (sawClose link)⟩
        else return ⟨byte, false⟩

/-- Read `n` payload bytes of the current packet. -/
def readPayload (timeout : UInt32) : Nat → Attempt (Driver σ) Bytes
  | 0 => return []
  | n + 1 => do
    match ← lift (onEngine (Engine.awaitByte timeout)) with
    | none =>
      lift giveUpPacket
      throw .timeout
    | some byte =>
      lift countByte
      return byte :: (← readPayload timeout n)

/-- **Read up to `n` payload bytes of `link`.** -/
def receive (link : UInt8) (n : Nat) : Attempt (Driver σ) Bytes := do
  lift forgetStalePacket
  let packet := (← get).packet
  if link ≠ packet.link then throw .invalidLink
  else readPayload (← lift timeouts).data (min n packet.remaining.toNat)

/-- Ask to send a payload and wait for the prompt. What is waiting to be read is not thrown away
first: it may hold a packet that nobody has read yet. -/
def announce (pieces : List String) : Attempt (Driver σ) Unit := do
  let line ← liftResult (commandLine pieces)
  tryEngine (Engine.transmitLine line)
  if ← lift (onEngine (Engine.skipPast (utf8 sendPrompt) (← lift timeouts).prompt)) then return ()
  else
    logError "Data packet send error (1)"
    throw .prompt

/-- Wait for the confirmation of a payload. -/
def confirm : Attempt (Driver σ) Unit := do
  match ← lift (onEngine (Engine.awaitTag (← lift timeouts).send none true)) with
  | .matched .sendOk => return ()
  | .matched t =>
    logError s!"Data packet send error (2): {t.name}"
    throw (.rejected t)
  | _ =>
    logError "Data packet send error (2)"
    throw .timeout

/-- Transmit bytes as they are. -/
def transmit (bytes : Bytes) : Attempt (Driver σ) Unit := tryEngine (Engine.transmit bytes)

/-- **Send bytes on a link.** -/
def sendBytes (link : UInt8) (data : Bytes) : Attempt (Driver σ) Unit := do
  logDebug s!"> send_data {link} {data.length}"
  announce ["AT+CIPSEND=", toString link, ",", toString data.length]
  transmit data
  confirm

/-- **Send a text on a link**, followed by a line end if `crlf` is set. -/
def sendText (link : UInt8) (text : String) (crlf : Bool) : Attempt (Driver σ) Unit := do
  let length := text.utf8ByteSize + if crlf then lineEnd.utf8ByteSize else 0
  logDebug s!"> send_text {link} {length}"
  announce ["AT+CIPSEND=", toString link, ",", toString length]
  transmit (utf8 text)
  if crlf then transmit (utf8 lineEnd)
  confirm

/-- **Send a datagram on a link to a host.** -/
def sendDatagram (link : UInt8) (host : String) (port : UInt16) (data : Bytes) :
    Attempt (Driver σ) Unit := do
  logDebug s!"> send_data_udp {link} {data.length} {host}:{port}"
  announce
    ["AT+CIPSEND=", toString link, ",", toString data.length, ",\"", host, "\",", toString port]
  transmit data
  confirm

end EspWifi.Driver
