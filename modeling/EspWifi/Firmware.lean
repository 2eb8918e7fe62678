import EspWifi.Board.Machine
import EspWifi.Board.Power
import EspWifi.Net.Server

/-!
# The firmware

Powers the module, joins a network, and sends back whatever clients send. A lamp is lit while a
client is served.

* `Firmware.start`: bring up the board.
* `Firmware.serve`: bring up the network and serve clients, on any board.
* `Firmware.program`: both. It never returns; `rounds` bounds the rounds of its endless loops.
-/

namespace EspWifi.Firmware

/-- Speed of the serial link to the module. -/
def linkBaud : Nat := 115200

/-- Speed of the console. -/
def consoleBaud : Nat := 115200

/-- The most detailed records that are printed. -/
def verbosity : Level := .info

/-- The network that is joined. -/
def ssid : String := "energyShield"

def password : String := "energyShield2"

/-- The port clients connect to. -/
def serverPort : UInt16 := 23

/-- Pause before the network is tried again, in milliseconds. -/
def joinRetryDelay : UInt32 := 5000

/-- Bytes that are sent back in one piece. -/
def echoChunk : Nat := 64

/-- Half the period of the lamp while the module does not answer, in milliseconds. -/
def faultBlink : UInt32 := 200

/-- System clock in MHz. -/
def systemClock : Nat := 216

/-- Bring up the board: clock, pins, logger, lamp, power of the module, and the link to it. -/
def start : Run Board Lamp := do
  Board.startClock systemClock
  Board.configurePins
  Board.startLogger consoleBaud (some verbosity)
  logInfo "energyShield WiFi starting"
  let lamp ← Lamp.attach .pb0 true
  Power.attach
  Power.on
  Board.openLink linkBaud
  return lamp

section

variable {σ : Type} [Device σ] [Pins σ]

/-- Blink for ever. -/
def blink (rounds : Nat) : Lamp → Run (Wifi σ) Empty :=
  Run.forever rounds fun lamp => do
    let lamp ← Wifi.onDevice lamp.toggle
    Wifi.delay faultBlink
    return lamp

/-- Try to join the network until that succeeds. -/
def joinNetwork (rounds : Nat) : Run (Wifi σ) Unit :=
  Run.loop rounds (fun () => do
    match ← Wifi.join ssid password with
    | .connected => return .finish ()
    | _ =>
      logWarn s!"Join {ssid} failed, retrying"
      Wifi.delay joinRetryDelay
      return .again ()) ()

/-- Log the address the network gave out. -/
def reportAddress : Run (Wifi σ) Unit := do
  match ← Wifi.address.run with
  | .ok ip => logInfo s!"Joined {ssid} as {ip.text}"
  | .error f => logWarn s!"Joined {ssid}, address unknown: {f.message}"

/-- Start the server. -/
def listen : Run (Wifi σ) Unit := do
  match (← Server.start { port := serverPort }).1 with
  | .ok () => return ()
  | .error f => logError s!"Echo server not started: {f.message}"

/-- Send back what a client sends until nothing is waiting, or something fails. -/
def echo (rounds : Nat) : Client → Run (Wifi σ) Unit :=
  Run.loop rounds fun client => do
    match ← (client.readUpTo echoChunk).run with
    | .error f =>
      logWarn s!"Read failed: {f.message}"
      return .finish ()
    | .ok [] => return .finish ()
    | .ok data =>
      match ← client.send data with
      | (.ok _, client) => return .again client
      | (.error f, _) =>
        logWarn s!"Echo failed: {f.message}"
        return .finish ()

/-- Serve the client whose data is waiting, if there is one. -/
def serveNext (rounds : Nat) (lamp : Lamp) : Run (Wifi σ) Lamp := do
  match ← Server.accept with
  | none => return lamp
  | some client =>
    let lamp ← Wifi.onDevice (lamp.set true)
    echo rounds client
    Wifi.onDevice (lamp.set false)

/-- **Bring up the module and serve clients for ever**; blink if the module does not answer. -/
def serve (rounds : Nat) (lamp : Lamp) : Run (Wifi σ) Empty := do
  match ← Wifi.bringUp.run with
  | .error f =>
    logError s!"ESP8266 not responding: {f.message}"
    blink rounds lamp
  | .ok () =>
    joinNetwork rounds
    reportAddress
    listen
    Run.forever rounds (serveNext rounds) lamp

end

/-- **The program of the board.** -/
def program (rounds : Nat) : Run Board Empty := do
  let lamp ← start
  Run.focus (fun b => Wifi.ofDevice b {}) (fun w _ => w.device) (serve rounds lamp)

/-- **A run of the program from power-up until the supply is cut.** Each round of its endless loops
takes a millisecond at least, so none of them needs more rounds than there are milliseconds. -/
def run (b : Board) : Board :=
  match program (b.limit + 1) b with
  | .ok _ b => b
  | .error _ b => b

end EspWifi.Firmware
