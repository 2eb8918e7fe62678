import EspWifi.Net.Client

/-!
# The server

The module lets one server listen, on a link of its own. Connections are noticed when they send
something; `Server.accept` then hands out a client for them.
-/

namespace EspWifi

/-- A TCP server on a port. -/
structure Server where
  port : UInt16
  started : Bool := false
  deriving DecidableEq

namespace Server

variable {σ : Type} [Device σ]

/-- **Reserve the link of the server and start to listen.** -/
def start (s : Server) : Run (Wifi σ) (Except Fault Unit × Server) := do
  match ← (Wifi.claim serverLink).run with
  | .error f => return (.error f, s)
  | .ok () =>
    match ← (tryDriver (Driver.listen s.port)).run with
    | .ok () =>
      logInfo s!"Server started on port {s.port}"
      return (.ok (), { s with started := true })
    | .error f =>
      logError "Server failed to start"
      return (.error f, { s with started := false })

/-- **A client for the link whose data is waiting**, if there is any. -/
def accept : Run (Wifi σ) (Option Client) := do
  if (← onDriver (Driver.available none)) = 0 then return none
  else
    let link := (← get).driver.packet.link
    logInfo s!"New client {link}"
    match ← (Wifi.claim link).run with
    | .ok () => return some ⟨some link⟩
    | .error _ => return none

/-- Send to each of the links in turn. Returns the number of bytes sent in all. -/
def sendEach (data : Bytes) : List UInt8 → Run (Wifi σ) Nat
  | [] => return 0
  | link :: links => do
    let sent := match (← Client.send ⟨some link⟩ data).1 with
      | .ok n => n
      | .error _ => 0
    return sent + (← sendEach data links)

/-- **Send to every connected client.** The link of the server itself is left out. -/
def broadcast (data : Bytes) : Run (Wifi σ) Nat := do
  sendEach data ((← get).links.claimed.filter (· ≠ serverLink))

/-- The module does not report the state of its server. -/
def status : TcpState := .closed

end Server

end EspWifi
