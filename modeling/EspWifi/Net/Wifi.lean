import EspWifi.Modem.Query
import EspWifi.Modem.Scan
import EspWifi.Modem.Traffic
import EspWifi.Net.LinkTable

/-!
# The network

The network is the driver with the table of its links and the mode it was last put into. Clients,
servers and datagram sockets are small handles beside it; each operation on a handle takes the
network it belongs to.
-/

namespace EspWifi

/-- The channel of an access point when none is given. -/
def defaultChannel : UInt8 := 10

/-- The network on a device. -/
structure Wifi (σ : Type) where
  driver : Driver σ
  links : LinkTable := .fresh
  /-- The mode that was last asked for. -/
  mode : Option WifiMode := none

variable {σ α : Type}

/-- A driver program, run on the driver of a network. -/
def onDriver (m : Run (Driver σ) α) : Run (Wifi σ) α :=
  Run.focus (·.driver) (fun d w => { w with driver := d }) m

/-- A driver program that may fail, run on the driver of a network. -/
def tryDriver (m : Attempt (Driver σ) α) : Attempt (Wifi σ) α :=
  Attempt.focus (·.driver) (fun d w => { w with driver := d }) m

namespace Wifi

/-- The device under a network. -/
def device (w : Wifi σ) : σ := w.driver.engine.device

/-- A network on a device that was just powered up. -/
def ofDevice (device : σ) (timeouts : Timeouts) : Wifi σ :=
  { driver := { engine := { device, timeouts } } }

/-- A device program, run on the device under a network. -/
def onDevice (m : Run σ α) : Run (Wifi σ) α := onDriver (onEngine (EspWifi.onDevice m))

end Wifi

variable [Device σ]

instance : MonadLog (EStateM Halt (Wifi σ)) where
  record level message := onDriver (record level message)

namespace Wifi

/-- Wait on the clock of the device. -/
def delay (ms : UInt32) : Run (Wifi σ) Unit := onDriver (Driver.delay ms)

/-- Bring the module up. It must have power and be out of reset. -/
def bringUp : Attempt (Wifi σ) Unit := do
  logInfo "Initializing ESP module"
  tryDriver Driver.bringUp

def setMode (mode : WifiMode) : Run (Wifi σ) Unit := modify fun w => { w with mode := some mode }

/-- The status an attempt to connect ends with. -/
def statusOf : Except Fault Unit → WifiStatus
  | .ok () => .connected
  | .error _ => .connectFailed

/-- Join a network as a station. -/
def join (ssid pass : String) : Run (Wifi σ) WifiStatus := do
  setMode .station
  return statusOf (← (tryDriver (Driver.join ssid pass)).run)

/-- Start an access point, alone or beside the station. -/
def openAccessPoint (ssid : String) (channel : UInt8) (pass : String) (encryption : Encryption)
    (apOnly : Bool) : Run (Wifi σ) WifiStatus := do
  let mode : WifiMode := if apOnly then .accessPoint else .stationAndAccessPoint
  setMode mode
  return statusOf (← (tryDriver (Driver.openAccessPoint ssid pass channel encryption mode)).run)

/-- Start an access point that anyone may use, on the default channel. -/
def openPublicAccessPoint (ssid : String) : Run (Wifi σ) WifiStatus :=
  openAccessPoint ssid defaultChannel "" .none true

/-- Address of the station in station mode, of the access point otherwise. -/
def address : Attempt (Wifi σ) Ipv4 := do
  match (← get).mode with
  | some .station => tryDriver Driver.stationAddress
  | _ => tryDriver Driver.accessPointAddress

/-- Netmask of the station, unspecified outside station mode. -/
def netmask : Attempt (Wifi σ) Ipv4 := do
  match (← get).mode with
  | some .station => tryDriver Driver.netmask
  | _ => return .unspecified

/-- Gateway of the station, unspecified outside station mode. -/
def gateway : Attempt (Wifi σ) Ipv4 := do
  match (← get).mode with
  | some .station => tryDriver Driver.gateway
  | _ => return .unspecified

/-- Mark a link as in use. -/
def claim (link : UInt8) : Attempt (Wifi σ) Unit := do
  let table ← liftResult ((← get).links.claim link)
  modify fun w => { w with links := table }

/-- Record the local port of a link. -/
def setPort (link : UInt8) (port : UInt16) : Attempt (Wifi σ) Unit := do
  let table ← liftResult ((← get).links.setPort link port)
  modify fun w => { w with links := table }

/-- Give a link back. -/
def release (link : UInt8) : Run (Wifi σ) Unit :=
  modify fun w => { w with links := w.links.release link }

/-- The highest free link. -/
def freeLink : Run (Wifi σ) (Option UInt8) := do return (← get).links.free?

/-- Close a link and give it back, whatever the module says to that. -/
def closeLink (link : UInt8) : Run (Wifi σ) Unit := do
  match ← (tryDriver (Driver.closeLink link)).run with
  | .ok () => pure ()
  | .error f => logDebug s!"AT+CIPCLOSE={link} -> {f.message}"
  release link

end Wifi

end EspWifi
