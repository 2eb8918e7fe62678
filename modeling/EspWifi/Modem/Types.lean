import EspWifi.Modem.Address

/-!
# What the module reports

States, modes and network lists, with the numeric codes the module uses for them.
-/

namespace EspWifi

/-- Longest name of a network that is read: one byte short of the maximum, so that the closing quote
still fits into the window. -/
def ssidCapacity : Nat := 31

/-- Networks kept from a scan. -/
def maxNetworks : Nat := 10

/-- Bytes kept of the firmware version. -/
def versionCapacity : Nat := 5

/-- Transport of a link. -/
inductive Transport where
  | tcp | udp | ssl
  deriving DecidableEq

/-- State of the network connection. -/
inductive WifiStatus where
  /-- The module does not answer. -/
  | noShield
  | idle | connected | connectFailed | disconnected
  deriving DecidableEq

namespace WifiStatus

def code : WifiStatus → Nat
  | noShield => 255
  | idle => 0
  | connected => 1
  | connectFailed => 2
  | disconnected => 3

end WifiStatus

/-- What the module is in the network: a station, an access point, or both. -/
inductive WifiMode where
  | station | accessPoint | stationAndAccessPoint
  deriving DecidableEq

namespace WifiMode

def code : WifiMode → Nat
  | station => 1
  | accessPoint => 2
  | stationAndAccessPoint => 3

end WifiMode

/-- How a network is encrypted. -/
inductive Encryption where
  | none | wep | wpaPsk | wpa2Psk | wpaWpa2Psk | wpa2Enterprise
  deriving DecidableEq

namespace Encryption

def code : Encryption → Nat
  | none => 0
  | wep => 1
  | wpaPsk => 2
  | wpa2Psk => 3
  | wpaWpa2Psk => 4
  | wpa2Enterprise => 5

def ofCode? : Nat → Option Encryption
  | 0 => some none
  | 1 => some wep
  | 2 => some wpaPsk
  | 3 => some wpa2Psk
  | 4 => some wpaWpa2Psk
  | 5 => some wpa2Enterprise
  | _ => Option.none

/-- A code stands for at most one encryption, and every encryption has one. -/
theorem ofCode?_eq_some_iff {n : Nat} {e : Encryption} : ofCode? n = some e ↔ n = e.code := by
  constructor
  · intro h
    unfold ofCode? at h
    split at h <;> cases h <;> rfl
  · rintro rfl
    cases e <;> rfl

end Encryption

/-- State of a TCP connection. -/
inductive TcpState where
  | closed | listen | synSent | synRcvd | established | finWait1 | finWait2 | closeWait | closing
  | lastAck | timeWait
  deriving DecidableEq

namespace TcpState

def code : TcpState → Nat
  | closed => 0
  | listen => 1
  | synSent => 2
  | synRcvd => 3
  | established => 4
  | finWait1 => 5
  | finWait2 => 6
  | closeWait => 7
  | closing => 8
  | lastAck => 9
  | timeWait => 10

end TcpState

/-- A network found by a scan. -/
structure Network where
  ssid : String
  /-- Signal strength in dBm. -/
  rssi : Int
  /-- Code of the encryption, as reported. -/
  encryptionCode : UInt8
  deriving DecidableEq

/-- The encryption of a network, if its code is known. -/
def Network.encryption (n : Network) : Option Encryption :=
  Encryption.ofCode? n.encryptionCode.toNat

end EspWifi
