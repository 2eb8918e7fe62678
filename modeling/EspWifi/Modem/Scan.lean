import EspWifi.Modem.Driver

/-!
# Network scans

`Driver.listNetworks` reads the list of networks entry by entry and keeps the first ten. The list is
closed by a tag; a list that breaks off is an error, but the entries read so far are kept.
-/

namespace EspWifi.Driver

variable {σ : Type} [Device σ]

/-- Begins an entry of the list. -/
def entryStart : Bytes := utf8 "+CWLAP:("

/-- A number that may be missing. -/
def intOrZero : Run (Engine σ) Int := do return (← Engine.readInt).getD 0

/-- **Read an entry after its start**: the encryption, the name between quotes and the signal
strength. A number that is missing counts as zero, a name that is missing as empty. -/
def readEntry (timeout : UInt32) : Run (Engine σ) Network := do
  let encryption ← intOrZero
  let _ ← Engine.awaitTag timeout (some (utf8 "\"")) true
  let ssid ← match ← Engine.awaitTag timeout (some (utf8 "\"")) false with
    | .found => pure (((← get).window.extract ssidCapacity 1).toOption.getD "")
    | _ => pure ""
  let _ ← Engine.awaitTag timeout (some (utf8 ",")) true
  let rssi ← intOrZero
  return { ssid, rssi, encryptionCode := (Packet.byte? encryption).getD 0 }

/-- Read entries as long as another one begins and there is room. Returns how the list ended. -/
def readEntries (timeout : UInt32) (first : Scan) : Run (Driver σ) Scan :=
  Run.loop (maxNetworks + 1) (fun scan => do
    match scan with
    | .found =>
      let entry ← onEngine (readEntry timeout)
      modify fun d => { d with networks := d.networks ++ [entry] }
      if maxNetworks ≤ (← get).networks.length then return .finish .found
      else return .again (← onEngine (Engine.awaitTag timeout (some entryStart) true))
    | _ => return .finish scan) first

/-- **List the networks in reach.** Returns how many were kept; those of the last scan are forgotten
even if this one fails. -/
def listNetworks : Attempt (Driver σ) Nat := do
  logDebug "> scan_networks"
  modify fun d => { d with networks := [] }
  let _ ← lift (onEngine (Engine.drain true))
  tryEngine (Engine.transmitLine "AT+CWLAP")
  let timeouts ← lift timeouts
  let first ← lift (onEngine (Engine.awaitTag timeouts.scan (some entryStart) true))
  match ← lift (readEntries timeouts.field first) with
  | .timedOut => throw .timeout
  | _ =>
    let count := (← get).networks.length
    logDebug s!"Found {count} networks"
    return count

end EspWifi.Driver
