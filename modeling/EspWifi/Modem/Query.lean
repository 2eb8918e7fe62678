import EspWifi.Modem.Driver
import EspWifi.Text.Blank

/-!
# Queries

What the module can be asked about its connection: state, addresses, the joined network, a ping.
Each query cuts one field out of the response.
-/

namespace EspWifi.Driver

variable {σ : Type} [Device σ]

/-- Room for an IPv4 or a MAC address. -/
def addressCapacity : Nat := 19

/-- Room for a number or another short field. -/
def shortCapacity : Nat := 9

/-- The field between `start` and `stop` in the response to a command. -/
def query (command start stop : String) (m : Nat) : Attempt (Driver σ) String :=
  tryEngine (Engine.queryField command (utf8 start) (utf8 stop) m)

/-- A value that has to be there. -/
def orParse {α : Type} : Option α → Attempt (Driver σ) α
  | some a => pure a
  | none => throw .parse

/-- What a status code says: 2 to 4 are the stages of a connection, 5 is none. -/
def statusOfText (text : String) : WifiStatus :=
  match readUnsigned 10 255 (trimBlanks text.toList) with
  | some 2 | some 3 | some 4 => .connected
  | some 5 => .disconnected
  | _ => .idle

/-- State of the network connection. -/
def status : Run (Driver σ) WifiStatus := do
  logDebug "> connection_status"
  match ← (query "AT+CIPSTATUS" "STATUS:" "\r\n" shortCapacity).run with
  | .ok text => return statusOfText text
  | .error _ => return .noShield

/-- Room for the start of a line that describes a link. -/
def linkTagCapacity : Nat := 16

/-- **Is a link among those the module lists?** -/
def isListed (link : UInt8) : Attempt (Driver σ) Bool := do
  logDebug s!"> client_state {link}"
  match appendWithin linkTagCapacity "" ["+CIPSTATUS:", toString link, ","] with
  | none => throw .commandTooLong
  | some tag =>
    match ← lift (query "AT+CIPSTATUS" tag "," shortCapacity).run with
    | .ok _ => return true
    | .error (.notFound _) => return false
    | .error f => throw f

/-- MAC address of the station. -/
def macAddress : Attempt (Driver σ) Mac := do
  logDebug "> mac_address"
  orParse (Mac.ofText? (← query "AT+CIFSR" ":STAMAC,\"" "\"" addressCapacity))

/-- An IPv4 address out of a response. -/
def addressField (command start : String) : Attempt (Driver σ) Ipv4 := do
  orParse (Ipv4.ofText? (← query command start "\"" addressCapacity))

/-- Address of the station. -/
def stationAddress : Attempt (Driver σ) Ipv4 := do
  logDebug "> local_ip"
  addressField "AT+CIFSR" ":STAIP,\""

/-- Address of the access point. -/
def accessPointAddress : Attempt (Driver σ) Ipv4 := do
  logDebug "> local_ip_ap"
  addressField "AT+CIPAP?" "+CIPAP:ip:\""

def netmask : Attempt (Driver σ) Ipv4 := do
  logDebug "> netmask"
  addressField "AT+CIPSTA?" "+CIPSTA:netmask:\""

def gateway : Attempt (Driver σ) Ipv4 := do
  logDebug "> gateway"
  addressField "AT+CIPSTA?" "+CIPSTA:gateway:\""

/-- Name of the joined network. -/
def joinedSsid : Attempt (Driver σ) String := do
  logDebug "> current_ssid"
  query "AT+CWJAP?" "+CWJAP:\"" "\"" ssidCapacity

/-- MAC address of the joined access point. -/
def joinedBssid : Attempt (Driver σ) Mac := do
  logDebug "> current_bssid"
  orParse (Mac.ofText? (← query "AT+CWJAP?" ",\"" "\"," addressCapacity))

/-- The largest number that is read as a signal strength. -/
def rssiLimit : Nat := 2147483647

/-- A signal strength, whose minus sign was read before. -/
def rssiOfText? (text : String) : Option Int :=
  (readUnsigned 10 rssiLimit (text.toList.takeWhile fun c => '0' ≤ c && c ≤ '9')).map
    fun n => -(n : Int)

/-- Signal strength of the joined network in dBm. -/
def joinedRssi : Attempt (Driver σ) Int := do
  logDebug "> current_rssi"
  orParse (rssiOfText? (← query "AT+CWJAP?" ",-" "\r\n" shortCapacity))

/-- Ping a host. -/
def ping (host : String) : Attempt (Driver σ) Unit := do
  logDebug "> ping"
  command (["AT+PING="] ++ quoted host) (← lift timeouts).ping

end EspWifi.Driver
