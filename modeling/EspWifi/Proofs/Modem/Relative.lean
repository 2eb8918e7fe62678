import EspWifi.Modem.Query
import EspWifi.Modem.Scan
import EspWifi.Modem.Traffic
import EspWifi.Proofs.At.Relative

/-!
# The driver on twins

Every operation of the module driver is relative, as it looks at the clock through the engine only.

* `Packet.relative_read`: headers.
* `Driver.relative_bringUp`, `Driver.relative_join`, `Driver.relative_openAccessPoint`: set-up.
* `Driver.relative_query`: queries; `Driver.relative_listNetworks`: scans.
* `Driver.relative_available`, `Driver.relative_receiveByte`, `Driver.relative_receive`: inbound
  packets; `Driver.relative_announce`, `Driver.relative_confirm`: outbound payload.
-/

namespace EspWifi

open Run

variable {σ α : Type} [Device σ] {T : TwinDevices σ}

instance : OnDevice (Driver σ) σ where
  device d := d.engine.device
  replace dev d := { d with engine := { d.engine with device := dev } }
  device_replace _ _ := rfl
  replace_replace _ _ _ := rfl

omit [Device σ] in
theorem Driver.enginePart :
    DevicePart (fun d : Driver σ => d.engine) fun e d => { d with engine := e } where
  device_get _ := rfl
  device_put _ _ := rfl
  get_replace _ _ := rfl
  put_replace _ _ _ := rfl
  replace_put _ _ _ := rfl

namespace Packet

theorem relative_readByte : (readByte : OptionT (Run (Engine σ)) _).run.Relative T :=
  .optionBind Engine.relative_readInt fun _ => .pure _

theorem relative_readWord : (readWord : OptionT (Run (Engine σ)) _).run.Relative T :=
  .optionBind Engine.relative_readInt fun _ => .pure _

theorem relative_readSender : (readSender : OptionT (Run (Engine σ)) _).run.Relative T :=
  .optionBind relative_readByte fun _ => .optionBind relative_readByte fun _ =>
    .optionBind relative_readByte fun _ => .optionBind relative_readByte fun _ =>
      .optionBind relative_readWord fun _ => .optionPure _

theorem relative_read : (read : OptionT (Run (Engine σ)) _).run.Relative T := by
  unfold read
  refine .optionBind ?_ fun timeout => .optionBind relative_readByte fun link =>
    .optionBind relative_readWord fun remaining =>
      .optionBind (Engine.relative_awaitPeek _) fun next => ?_
  · rw [OptionT.run_lift]
    exact .bind Engine.relative_fieldTimeout fun _ => .pure _
  have stop : ∀ packet : Packet, (do
      let stop ← OptionT.mk (Engine.awaitByte timeout)
      if stop = ascii ':' then return packet else failure :
        OptionT (Run (Engine σ)) Packet).run.Relative T := by
    intro packet
    refine .optionBind (Engine.relative_awaitByte _) fun stop => ?_
    split
    · exact .optionPure _
    · exact .failure
  split
  · exact .optionBind relative_readSender fun _ => .optionBind (.optionPure _) stop
  · exact .optionBind (.optionPure _) stop

end Packet

namespace Driver

theorem relative_onEngine {m : Run (Engine σ) α} (h : m.Relative T) : (onEngine m).Relative T :=
  .focus enginePart h

theorem relative_tryEngine {x : Attempt (Engine σ) α} (h : x.Relative T) :
    (tryEngine x).Relative T := .focus enginePart h

theorem relative_record (level : Level) (message : String) :
    (MonadLog.record level message : Run (Driver σ) Unit).Relative T :=
  relative_onEngine (Engine.relative_record level message)

/-- A note in the log before something else. -/
theorem relative_logged {level : Level} {message : String} {x : Attempt (Driver σ) α}
    (h : x.Relative T) : (do MonadLog.record level message; x).Relative T :=
  .bind (.lift (relative_record level message)) fun _ => h

theorem relative_timeouts : (timeouts : Run (Driver σ) Timeouts).Relative T :=
  .get_bind (fun _ _ => rfl) fun _ => .pure _

theorem relative_delay (ms : UInt32) : (delay ms : Run (Driver σ) Unit).Relative T :=
  relative_onEngine (Engine.relative_onDevice (T.delay ms))

/-! ### Set-up -/

theorem relative_command (pieces : List String) (timeout : UInt32) :
    (command pieces timeout : Attempt (Driver σ) Unit).Relative T :=
  relative_tryEngine (Engine.relative_requestOk pieces timeout)

theorem relative_setUp (line : String) : (setUp line : Run (Driver σ) Unit).Relative T := by
  unfold setUp
  refine .bind relative_timeouts fun _ => .bind (relative_command _ _).run fun r => ?_
  cases r with
  | ok _ => exact .pure _
  | error f => exact relative_record _ _

theorem relative_probe (timeout : UInt32) (n : Nat) :
    (probe timeout n : Run (Driver σ) Bool).Relative T := by
  induction n with
  | zero => exact .pure _
  | succ n ih =>
    have again : (do
        delay 1000
        probe timeout n : Run (Driver σ) Bool).Relative T := .bind (relative_delay _) fun _ => ih
    unfold probe
    refine .bind (relative_tryEngine (Engine.relative_request _ _)).run fun r => ?_
    split
    · exact .pure _
    · exact again

theorem relative_restart : (restart : Run (Driver σ) Unit).Relative T :=
  .bind (relative_record _ _) fun _ =>
  .bind (relative_setUp _) fun _ =>
  .bind (relative_delay _) fun _ =>
  .bind (relative_onEngine (Engine.relative_drain _)) fun _ =>
  .bind (relative_setUp _) fun _ =>
  .bind (relative_setUp _) fun _ =>
  .bind (relative_delay _) fun _ =>
  .bind (relative_setUp _) fun _ =>
  .bind (relative_setUp _) fun _ =>
  .bind (relative_setUp _) fun _ =>
  .bind (relative_setUp _) fun _ =>
  .bind (relative_delay _) fun _ =>
  .modify (fun _ _ => rfl) fun _ => rfl

theorem relative_readVersion : (readVersion : Attempt (Driver σ) String).Relative T :=
  relative_logged <| .bind (.modify (fun _ _ => rfl) fun _ => rfl) fun _ =>
    .bind (relative_tryEngine (Engine.relative_queryField _ _ _ _)) fun _ =>
      .bind (.modify (fun _ _ => rfl) fun _ => rfl) fun _ => .pure _

theorem relative_bringUp : (bringUp : Attempt (Driver σ) Unit).Relative T :=
  relative_logged <| .bind (.lift relative_timeouts) fun _ =>
    .bind (.lift (relative_probe _ _)) fun _ => .ite
      (.bind (.lift relative_restart) fun _ => .bind (.lift relative_readVersion.run) fun _ =>
        .ite (.lift (relative_record _ _)) (.lift (relative_record _ _)))
      (relative_logged (.throw _))

theorem relative_join (ssid pass : String) :
    (join ssid pass : Attempt (Driver σ) Unit).Relative T := by
  refine .mk (.bind (relative_record _ _) fun _ => .bind relative_timeouts fun _ =>
    .bind (relative_command _ _).run fun result => ?_)
  cases result with
  | ok _ => exact .bind (relative_record _ _) fun _ => .pure _
  | error f =>
    exact .bind (relative_record _ _) fun _ => .bind (relative_delay _) fun _ =>
      .bind (relative_onEngine (Engine.relative_drain _)) fun _ => .pure _

theorem relative_orWarn {x : Attempt (Driver σ) Unit} (h : x.Relative T) (warning : String) :
    (orWarn x warning).Relative T := by
  refine .mk (.bind h.run fun result => ?_)
  cases result with
  | ok _ => exact .pure _
  | error f => exact .bind (relative_record _ _) fun _ => .pure _

theorem relative_openAccessPoint (ssid pass : String) (channel : UInt8) (encryption : Encryption)
    (mode : WifiMode) :
    (openAccessPoint ssid pass channel encryption mode : Attempt (Driver σ) Unit).Relative T := by
  refine relative_logged <| .bind (.lift relative_timeouts) fun timeouts =>
    .bind (relative_orWarn (relative_command _ _) _) fun _ =>
      .bind (relative_orWarn (relative_command _ _) _) fun _ => ?_
  cases mode with
  | accessPoint =>
    exact .bind (.lift (relative_setUp _)) fun _ => .lift (relative_record _ _)
  | stationAndAccessPoint =>
    exact .bind (.lift (relative_setUp _)) fun _ => .lift (relative_record _ _)
  | station => exact .bind (.pure _) fun _ => .lift (relative_record _ _)

theorem relative_leave : (leave : Run (Driver σ) WifiStatus).Relative T := by
  refine .bind (relative_record _ _) fun _ => .bind relative_timeouts fun _ =>
    .bind (relative_command _ _).run fun result => ?_
  cases result with
  | ok _ => exact .pure _
  | error f =>
    exact .bind (relative_delay _) fun _ =>
      .bind (relative_onEngine (Engine.relative_drain _)) fun _ => .pure _

theorem relative_setAddress (name : String) (ip : Ipv4) :
    (setAddress name ip : Attempt (Driver σ) Unit).Relative T := by
  refine .mk (.bind (relative_delay _) fun _ => .bind relative_timeouts fun _ =>
    .bind (relative_command _ _).run fun result => .bind (relative_delay _) fun _ => ?_)
  cases result with
  | ok _ => exact .bind (relative_record _ _) fun _ => .pure _
  | error f => exact .bind (.pure _) fun _ => .pure _

theorem relative_setStationAddress (ip : Ipv4) :
    (setStationAddress ip : Attempt (Driver σ) Unit).Relative T :=
  relative_logged <| .bind (.lift (relative_setUp _)) fun _ => relative_setAddress _ ip

theorem relative_setAccessPointAddress (ip : Ipv4) :
    (setAccessPointAddress ip : Attempt (Driver σ) Unit).Relative T :=
  relative_logged <| .bind (.lift (relative_setUp _)) fun _ =>
    .bind (.lift (relative_setUp _)) fun _ => relative_setAddress _ ip

/-! ### Queries -/

theorem relative_query (command start stop : String) (m : Nat) :
    (query command start stop m : Attempt (Driver σ) String).Relative T :=
  relative_tryEngine (Engine.relative_queryField _ _ _ _)

theorem relative_orParse (a : Option α) : (orParse a : Attempt (Driver σ) α).Relative T := by
  cases a with
  | some a => exact .pure a
  | none => exact .throw _

theorem relative_status : (status : Run (Driver σ) WifiStatus).Relative T := by
  refine .bind (relative_record _ _) fun _ => .bind (relative_query _ _ _ _).run fun result => ?_
  cases result <;> exact .pure _

theorem relative_isListed (link : UInt8) : (isListed link : Attempt (Driver σ) Bool).Relative T := by
  refine relative_logged ?_
  cases appendWithin linkTagCapacity "" ["+CIPSTATUS:", toString link, ","] with
  | none => exact .throw _
  | some tag =>
    refine .bind (.lift (relative_query _ _ _ _).run) fun result => ?_
    cases result with
    | ok _ => exact .pure _
    | error f =>
      cases f with
      | notFound t => exact .pure _
      | _ => exact .throw _

/-- A query whose answer is a value of some kind. -/
theorem relative_parsed (command start stop : String) (m : Nat) (read : String → Option α) :
    (do orParse (read (← query command start stop m)) : Attempt (Driver σ) α).Relative T :=
  .bind (relative_query _ _ _ _) fun _ => relative_orParse _

theorem relative_macAddress : (macAddress : Attempt (Driver σ) Mac).Relative T :=
  relative_logged (relative_parsed _ _ _ _ _)

theorem relative_addressField (command start : String) :
    (addressField command start : Attempt (Driver σ) Ipv4).Relative T := relative_parsed _ _ _ _ _

theorem relative_stationAddress : (stationAddress : Attempt (Driver σ) Ipv4).Relative T :=
  relative_logged (relative_addressField _ _)

theorem relative_accessPointAddress : (accessPointAddress : Attempt (Driver σ) Ipv4).Relative T :=
  relative_logged (relative_addressField _ _)

theorem relative_netmask : (netmask : Attempt (Driver σ) Ipv4).Relative T :=
  relative_logged (relative_addressField _ _)

theorem relative_gateway : (gateway : Attempt (Driver σ) Ipv4).Relative T :=
  relative_logged (relative_addressField _ _)

theorem relative_joinedSsid : (joinedSsid : Attempt (Driver σ) String).Relative T :=
  relative_logged (relative_query _ _ _ _)

theorem relative_joinedBssid : (joinedBssid : Attempt (Driver σ) Mac).Relative T :=
  relative_logged (relative_parsed _ _ _ _ _)

theorem relative_joinedRssi : (joinedRssi : Attempt (Driver σ) Int).Relative T :=
  relative_logged (relative_parsed _ _ _ _ _)

theorem relative_ping (host : String) : (ping host : Attempt (Driver σ) Unit).Relative T :=
  relative_logged <| .bind (.lift relative_timeouts) fun _ => relative_command _ _

/-! ### Scans -/

theorem relative_intOrZero : (intOrZero : Run (Engine σ) Int).Relative T :=
  .bind Engine.relative_readInt fun _ => .pure _

theorem relative_readEntry (timeout : UInt32) :
    (readEntry timeout : Run (Engine σ) Network).Relative T := by
  unfold readEntry
  refine .bind relative_intOrZero fun _ => .bind (Engine.relative_awaitTag _ _ _) fun _ =>
    .bind (Engine.relative_awaitTag _ _ _) fun scan => ?_
  have rest : ∀ ssid encryption, (do
      let _ ← Engine.awaitTag timeout (some (utf8 ",")) true
      let rssi ← intOrZero
      return { ssid, rssi, encryptionCode := encryption } : Run (Engine σ) Network).Relative T :=
    fun _ _ => .bind (Engine.relative_awaitTag _ _ _) fun _ =>
      .bind relative_intOrZero fun _ => .pure _
  cases scan with
  | found =>
    exact .get_bind (fun _ _ => rfl) fun _ => .bind (.pure _) fun _ => rest _ _
  | _ => exact .bind (.pure _) fun _ => rest _ _

theorem relative_readEntries (timeout : UInt32) (first : Scan) :
    (readEntries timeout first : Run (Driver σ) Scan).Relative T := by
  refine .loop (fun scan => ?_) _ _
  cases scan with
  | found =>
    refine .bind (relative_onEngine (relative_readEntry _)) fun entry =>
      .bind (.modify (fun _ _ => rfl) fun _ => rfl) fun _ => .get_bind (fun _ _ => rfl) fun _ => ?_
    exact .ite (.pure _) (.bind (relative_onEngine (Engine.relative_awaitTag _ _ _)) fun _ => .pure _)
  | _ => exact .pure _

theorem relative_listNetworks : (listNetworks : Attempt (Driver σ) Nat).Relative T := by
  refine relative_logged <| .bind (.modify (fun _ _ => rfl) fun _ => rfl) fun _ =>
    .bind (.lift (relative_onEngine (Engine.relative_drain _))) fun _ =>
    .bind (relative_tryEngine (Engine.relative_transmitLine _)) fun _ =>
    .bind (.lift relative_timeouts) fun _ =>
    .bind (.lift (relative_onEngine (Engine.relative_awaitTag _ _ _))) fun _ =>
    .bind (.lift (relative_readEntries _ _)) fun scan => ?_
  cases scan with
  | timedOut => exact .throw _
  | _ => exact .get_bind (fun _ _ => rfl) fun _ => relative_logged (.pure _)

/-! ### Links -/

theorem relative_listen (port : UInt16) : (listen port : Attempt (Driver σ) Unit).Relative T :=
  relative_logged <| .bind (.lift relative_timeouts) fun _ => relative_command _ _

theorem relative_openLink (host : String) (port : UInt16) (link : UInt8) (transport : Transport) :
    (openLink host port link transport : Attempt (Driver σ) Unit).Relative T := by
  refine relative_logged <| .bind (.lift relative_timeouts) fun timeouts => ?_
  cases transport with
  | tcp => exact relative_command _ _
  | ssl => exact .bind (.lift (relative_setUp _)) fun _ => relative_command _ _
  | udp => exact relative_command _ _

theorem relative_closeLink (link : UInt8) : (closeLink link : Attempt (Driver σ) Unit).Relative T :=
  relative_logged <| .bind (.lift relative_timeouts) fun _ => relative_command _ _

/-! ### Inbound packets -/

theorem relative_forgetPacket : (forgetPacket : Run (Driver σ) Unit).Relative T :=
  .modify (fun _ _ => rfl) fun _ => rfl

theorem relative_forgetStalePacket : (forgetStalePacket : Run (Driver σ) Unit).Relative T :=
  .bind (relative_onEngine Engine.relative_takeDropped) fun _ => .get_bind (fun _ _ => rfl) fun _ =>
    .ite (.bind (relative_record _ _) fun _ => relative_forgetPacket) (.pure _)

theorem relative_pending (link : Option UInt8) :
    (pending link : Run (Driver σ) UInt16).Relative T := .get_bind (fun _ _ => rfl) fun _ => .pure _

theorem relative_nextPacket : (nextPacket : Run (Driver σ) Bool).Relative T := by
  refine .bind (relative_onEngine (Engine.relative_onDevice T.available)) fun _ => .ite (.pure _) ?_
  refine .bind relative_timeouts fun _ =>
    .bind (relative_onEngine (Engine.relative_skipPast _ _)) fun _ => .ite ?_ (.pure _)
  refine .bind (relative_onEngine Packet.relative_read) fun packet => ?_
  cases packet with
  | some packet =>
    exact .bind (relative_record _ _) fun _ => .bind (.modify (fun _ _ => rfl) fun _ => rfl) fun _ =>
      .pure _
  | none => exact .bind (relative_record _ _) fun _ => .bind relative_forgetPacket fun _ => .pure _

theorem relative_available (link : Option UInt8) :
    (available link : Run (Driver σ) UInt16).Relative T :=
  .bind relative_forgetStalePacket fun _ => .get_bind (fun _ _ => rfl) fun _ => .ite
    (.bind relative_nextPacket fun _ => .ite (relative_pending _) (.pure _)) (relative_pending _)

theorem relative_giveUpPacket : (giveUpPacket : Run (Driver σ) Unit).Relative T :=
  .get_bind (fun _ _ => rfl) fun _ => .bind (relative_record _ _) fun _ => relative_forgetPacket

theorem relative_countByte : (countByte : Run (Driver σ) Unit).Relative T :=
  .modify (fun _ _ => rfl) fun _ => rfl

theorem relative_sawClose (link : UInt8) : (sawClose link : Run (Driver σ) Bool).Relative T := by
  have closed : (do
      logDebug "Connection closed"
      return true : Run (Driver σ) Bool).Relative T := .bind (relative_record _ _) fun _ => .pure _
  refine .bind (relative_delay _) fun _ =>
    .bind (relative_onEngine (Engine.relative_onDevice T.peek)) fun _ => .ite ?_ (.pure _)
  exact .bind relative_timeouts fun _ =>
    .bind (relative_onEngine (Engine.relative_skipPast _ _)) fun _ =>
      .ite (.bind (relative_record _ _) fun _ => closed) closed

theorem relative_receiveByte (link : UInt8) (peek : Bool) :
    (receiveByte link peek : Attempt (Driver σ) Received).Relative T := by
  refine .bind (.lift relative_forgetStalePacket) fun _ => .get_bind (fun _ _ => rfl) fun _ =>
    .ite (.throw _) ?_
  refine .bind (.lift relative_timeouts) fun timeouts =>
    .bind (.lift (relative_onEngine ?_)) fun byte => ?_
  · exact .ite (Engine.relative_awaitPeek _) (Engine.relative_awaitByte _)
  cases byte with
  | none => exact .bind (.lift relative_giveUpPacket) fun _ => .throw _
  | some byte =>
    refine .ite (.pure _) (.bind (.lift relative_countByte) fun _ => ?_)
    exact .get_bind (fun _ _ => rfl) fun _ =>
      .ite (.bind (.lift (relative_sawClose _)) fun _ => .pure _) (.pure _)

theorem relative_readPayload (timeout : UInt32) (n : Nat) :
    (readPayload timeout n : Attempt (Driver σ) Bytes).Relative T := by
  induction n with
  | zero => exact .pure _
  | succ n ih =>
    refine .bind (.lift (relative_onEngine (Engine.relative_awaitByte _))) fun byte => ?_
    cases byte with
    | none => exact .bind (.lift relative_giveUpPacket) fun _ => .throw _
    | some byte => exact .bind (.lift relative_countByte) fun _ => .bind ih fun _ => .pure _

theorem relative_receive (link : UInt8) (n : Nat) :
    (receive link n : Attempt (Driver σ) Bytes).Relative T :=
  .bind (.lift relative_forgetStalePacket) fun _ => .get_bind (fun _ _ => rfl) fun _ =>
    .ite (.throw _) (.bind (.lift relative_timeouts) fun _ => relative_readPayload _ _)

/-! ### Outbound payload -/

theorem relative_announce (pieces : List String) :
    (announce pieces : Attempt (Driver σ) Unit).Relative T :=
  .bind (.liftResult _) fun _ => .bind (relative_tryEngine (Engine.relative_transmitLine _)) fun _ =>
    .bind (.lift relative_timeouts) fun _ =>
      .bind (.lift (relative_onEngine (Engine.relative_skipPast _ _))) fun _ =>
        .ite (.pure _) (relative_logged (.throw _))

theorem relative_confirm : (confirm : Attempt (Driver σ) Unit).Relative T := by
  refine .bind (.lift relative_timeouts) fun _ =>
    .bind (.lift (relative_onEngine (Engine.relative_awaitTag _ _ _))) fun scan => ?_
  cases scan with
  | matched t =>
    cases t with
    | sendOk => exact .pure _
    | _ => exact relative_logged (.throw _)
  | found => exact relative_logged (.throw _)
  | timedOut => exact relative_logged (.throw _)

theorem relative_transmit (bytes : Bytes) :
    (transmit bytes : Attempt (Driver σ) Unit).Relative T :=
  relative_tryEngine (Engine.relative_transmit bytes)

theorem relative_sendBytes (link : UInt8) (data : Bytes) :
    (sendBytes link data : Attempt (Driver σ) Unit).Relative T :=
  relative_logged <| .bind (relative_announce _) fun _ => .bind (relative_transmit _) fun _ =>
    relative_confirm

theorem relative_sendText (link : UInt8) (text : String) (crlf : Bool) :
    (sendText link text crlf : Attempt (Driver σ) Unit).Relative T :=
  relative_logged <| .bind (relative_announce _) fun _ => .bind (relative_transmit _) fun _ =>
    .ite (.bind (relative_transmit _) fun _ => relative_confirm) relative_confirm

theorem relative_sendDatagram (link : UInt8) (host : String) (port : UInt16) (data : Bytes) :
    (sendDatagram link host port data : Attempt (Driver σ) Unit).Relative T :=
  relative_logged <| .bind (relative_announce _) fun _ => .bind (relative_transmit _) fun _ =>
    relative_confirm

end Driver

end EspWifi
