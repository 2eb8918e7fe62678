import EspWifi.Modem.Packet
import EspWifi.Modem.Quoted
import EspWifi.Modem.Types

/-!
# The module driver

The driver keeps what the module does not keep for us: the header of the packet that is being read,
the firmware version, and the networks of the last scan. The module is run with several links at
once and reports the sender of each packet; `Driver.restart` sets it up that way.

* `Driver.bringUp`, `Driver.restart`: bring the module up.
* `Driver.join`, `Driver.openAccessPoint`, `Driver.leave`: networks.
* `Driver.setStationAddress`, `Driver.setAccessPointAddress`: static addresses.
-/

namespace EspWifi

/-- The driver on a device. -/
structure Driver (σ : Type) where
  engine : Engine σ
  packet : Packet := {}
  /-- The firmware version, as last read. -/
  version : String := ""
  /-- The networks of the last scan. -/
  networks : List Network := []

variable {σ α : Type}

/-- An engine program, run on the engine of a driver. -/
def onEngine (m : Run (Engine σ) α) : Run (Driver σ) α :=
  Run.focus (·.engine) (fun e d => { d with engine := e }) m

/-- An engine program that may fail, run on the engine of a driver. -/
def tryEngine (m : Attempt (Engine σ) α) : Attempt (Driver σ) α :=
  Attempt.focus (·.engine) (fun e d => { d with engine := e }) m

variable [Device σ]

instance : MonadLog (EStateM Halt (Driver σ)) where
  record level message := onEngine (record level message)

namespace Driver

def timeouts : Run (Driver σ) Timeouts := do return (← get).engine.timeouts

/-- Wait on the clock of the device. -/
def delay (ms : UInt32) : Run (Driver σ) Unit := onEngine (onDevice (Device.delay ms))

/-- Send a command that has to be answered with `ok`. -/
def command (pieces : List String) (timeout : UInt32) : Attempt (Driver σ) Unit :=
  tryEngine (Engine.requestOk pieces timeout)

/-- Send a set-up command whose outcome matters to the log only. -/
def setUp (line : String) : Run (Driver σ) Unit := do
  match ← (command [line] (← timeouts).command).run with
  | .ok () => return ()
  | .error f => logDebug s!"{line} -> {f.message}"

/-- Probes sent before the module is given up. -/
def probeLimit : Nat := 5

/-- Probe the module until it answers, at most `n` times with a pause after each failure. -/
def probe (timeout : UInt32) : Nat → Run (Driver σ) Bool
  | 0 => return false
  | n + 1 => do
    match ← (tryEngine (Engine.request ["AT"] timeout)).run with
    | .ok .ok => return true
    | _ =>
      delay 1000
      probe timeout n

/-- **Restart the module and set it up**: station mode, several links, senders reported, addresses
from the network. Commands that fail are logged and passed over. -/
def restart : Run (Driver σ) Unit := do
  logDebug "> reset"
  setUp "AT+RST"
  delay 3000
  let _ ← onEngine (Engine.drain false)
  setUp "ATE0"
  setUp "AT+CWMODE=1"
  delay 200
  setUp "AT+CIPMUX=1"
  setUp "AT+CIPDINFO=1"
  setUp "AT+CWAUTOCONN=0"
  setUp "AT+CWDHCP=1,1"
  delay 200
  modify fun d => { d with packet := {} }

/-- Read the firmware version; the last one read is forgotten first. -/
def readVersion : Attempt (Driver σ) String := do
  logDebug "> firmware_version"
  modify fun d => { d with version := "" }
  let version ← tryEngine
    (Engine.queryField "AT+GMR" (utf8 "SDK version:") (utf8 lineEnd) versionCapacity)
  modify fun d => { d with version := version }
  return version

/-- Versions 1 and 2 are the ones the driver was made for. -/
def isSupported (version : String) : Bool :=
  match version.toList with
  | major :: dot :: _ => (major == '1' || major == '2') && dot == '.'
  | _ => false

/-- **Probe the module, restart it and read its version.** Fails if it answers no probe. -/
def bringUp : Attempt (Driver σ) Unit := do
  logDebug "> init"
  let timeouts ← lift timeouts
  if ← lift (probe timeouts.command probeLimit) then
    lift restart
    let version ← lift readVersion.run
    let version := match version with
      | .ok v => v
      | .error _ => ""
    if isSupported version then logInfo s!"Initialization successful - {version}"
    else logWarn s!"Unsupported firmware: {version}"
  else
    logError "Cannot initialize ESP module"
    throw .timeout

/-- A text parameter, with its quotes. -/
def quoted (s : String) : List String := ["\"", escape s, "\""]

/-- **Join a network.** After a failure the module is given time to finish what it has to say. -/
def join (ssid pass : String) : Attempt (Driver σ) Unit := ExceptT.mk do
  logDebug "> join"
  let timeout := (← timeouts).join
  let result ← (command (["AT+CWJAP_CUR="] ++ quoted ssid ++ [","] ++ quoted pass) timeout).run
  match result with
  | .ok () => logInfo s!"Connected to {ssid}"
  | .error f =>
    logWarn s!"Failed connecting to {ssid}: {f.message}"
    delay 1000
    let _ ← onEngine (Engine.drain false)
  return result

/-- Run `m`; if it fails, log `warning` and fail in the same way. -/
def orWarn (m : Attempt (Driver σ) Unit) (warning : String) : Attempt (Driver σ) Unit :=
  ExceptT.mk do
    let result ← m.run
    match result with
    | .ok () => return result
    | .error _ =>
      logWarn warning
      return result

/-- **Start an access point**, alone or beside the station. -/
def openAccessPoint (ssid pass : String) (channel : UInt8) (encryption : Encryption)
    (mode : WifiMode) : Attempt (Driver σ) Unit := do
  logDebug "> start_ap"
  let timeout := (← lift timeouts).accessPoint
  orWarn (command ["AT+CWMODE_CUR=", toString mode.code] timeout) s!"Failed to set AP mode {ssid}"
  orWarn
    (command
      (["AT+CWSAP_CUR="] ++ quoted ssid ++ [","] ++ quoted pass ++
        [",", toString channel, ",", toString encryption.code])
      timeout)
    s!"Failed to start AP {ssid}"
  match mode with
  | .accessPoint => lift (setUp "AT+CWDHCP_CUR=0,1")
  | .stationAndAccessPoint => lift (setUp "AT+CWDHCP_CUR=2,1")
  | .station => pure ()
  logInfo s!"Access point started {ssid}"

/-- Leave the network. -/
def leave : Run (Driver σ) WifiStatus := do
  logDebug "> disconnect"
  match ← (command ["AT+CWQAP"] (← timeouts).command).run with
  | .ok () => return .disconnected
  | .error _ =>
    delay 2000
    let _ ← onEngine (Engine.drain false)
    return .disconnected

/-- Set an address, with pauses around the command. -/
def setAddress (name : String) (ip : Ipv4) : Attempt (Driver σ) Unit := ExceptT.mk do
  delay 500
  let timeout := (← timeouts).staticIp
  let result ← (command [name, "=\"", ip.text, "\""] timeout).run
  delay 500
  match result with
  | .ok () => logInfo s!"IP address set {ip.text}"
  | .error _ => pure ()
  return result

/-- Give the station a static address. -/
def setStationAddress (ip : Ipv4) : Attempt (Driver σ) Unit := do
  logDebug "> config"
  lift (setUp "AT+CWDHCP_CUR=1,0")
  setAddress "AT+CIPSTA_CUR" ip

/-- Give the access point a static address. -/
def setAccessPointAddress (ip : Ipv4) : Attempt (Driver σ) Unit := do
  logDebug "> config_ap"
  lift (setUp "AT+CWMODE_CUR=2")
  lift (setUp "AT+CWDHCP_CUR=2,0")
  setAddress "AT+CIPAP_CUR" ip

end Driver

end EspWifi
