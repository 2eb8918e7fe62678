import EspWifi.Proofs.Net.Relative
import EspWifi.Session.Action

/-!
# Sessions on twins

Every operation of a session keeps twins alike, and every operation answers the same on both unless it
asks for the time itself.

* `Action.readsClock`: the operations whose answer is a reading of the clock.
* `Session.relative_perform`: **every other operation is relative.**
* `Session.both_perform`: operations of all kinds.
-/

namespace EspWifi

open Run

/-- Operations that answer with what the clock shows, or with how far it is from a given time. -/
def EngineAction.readsClock : EngineAction → Bool
  | .millis | .elapsed _ => true
  | _ => false

/-- Operations that answer with what the clock shows, or with how far it is from a given time. -/
def Action.readsClock : Action → Bool
  | .engine a => a.readsClock
  | _ => false

variable {σ α : Type} [Device σ] {T : TwinDevices σ}

instance : OnDevice (Session σ) σ where
  device s := s.wifi.device
  replace d s := { s with wifi := OnDevice.replace d s.wifi }
  device_replace _ _ := rfl
  replace_replace _ _ _ := rfl

omit [Device σ] in
theorem Session.wifiPart :
    DevicePart (fun s : Session σ => s.wifi) fun w s => { s with wifi := w } where
  device_get _ := rfl
  device_put _ _ := rfl
  get_replace _ _ := rfl
  put_replace _ _ _ := rfl
  replace_put _ _ _ := rfl

/-! ### The operations of each layer -/

/-- An answer that is made of what a relative program returns. -/
theorem Run.Relative.reply {τ β : Type} [OnDevice τ σ] {m : Run τ α} {f : α → β}
    (h : m.Relative T) : Relative T (do return f (← m) : Run τ β) := .bind h fun _ => .pure _

theorem EngineAction.relative_perform (a : EngineAction) (h : a.readsClock = false) :
    (a.perform : Run (Engine σ) Reply).Relative T := by
  cases a with
  | request command timeout => exact .reply (Engine.relative_request _ _).run
  | requestOk command timeout => exact .reply (Engine.relative_requestOk _ _).run
  | queryField command start stop m => exact .reply (Engine.relative_queryField _ _ _ _).run
  | awaitTag timeout tag known => exact .reply (Engine.relative_awaitTag _ _ _)
  | skipPast tag timeout => exact .reply (Engine.relative_skipPast _ _)
  | transmit data => exact .reply (Engine.relative_transmit _).run
  | transmitLine line => exact .reply (Engine.relative_transmitLine _).run
  | drain warn => exact .reply (Engine.relative_drain _)
  | awaitByte timeout => exact .reply (Engine.relative_awaitByte _)
  | awaitPeek timeout => exact .reply (Engine.relative_awaitPeek _)
  | readInt => exact .reply Engine.relative_readInt
  | window => exact .get_bind (fun _ _ => rfl) fun _ => .pure _
  | endsWith tag => exact .get_bind (fun _ _ => rfl) fun _ => .pure _
  | extract m skip => exact .get_bind (fun _ _ => rfl) fun _ => .pure _
  | takeDropped => exact .reply Engine.relative_takeDropped
  | timeouts => exact .get_bind (fun _ _ => rfl) fun _ => .pure _
  | takeErrors => exact .reply (Engine.relative_onDevice T.takeErrors)
  | available => exact .reply (Engine.relative_onDevice T.available)
  | millis => cases h
  | elapsed start => cases h
  | readPacket => exact .reply Packet.relative_read

/-- Readings of the clock may differ on twins, all other answers are the same. -/
theorem EngineAction.both_perform (a : EngineAction) {e e' : Engine σ} (h : T.Alike e e') :
    both a.perform a.perform
      (fun r t r' t' => (a.readsClock = false → r = r') ∧ T.Alike t t') e e' := by
  by_cases hclock : a.readsClock = false
  · exact both_mono (a.relative_perform hclock e e' h) fun _ _ _ _ hr => ⟨fun _ => hr.1, hr.2⟩
  have reading : ∀ {m : Run σ UInt32}, (∀ d d', T.rel d d' →
      both m m (fun t c t' c' => t' = t + T.lead ∧ T.rel c c') d d') →
      both (do return Reply.number (← onDevice m).toNat) (do return .number (← onDevice m).toNat)
        (fun r t r' t' => (a.readsClock = false → r = r') ∧ T.Alike t t') e e' := by
    intro m hm
    refine both_bind (both_mono (Engine.both_onDevice hm h) ?_)
    rintro t c t' c' ⟨-, hc⟩
    exact ⟨fun hfalse => (hclock hfalse).elim, hc⟩
  cases a with
  | millis => exact reading T.millis
  | elapsed start => exact reading (T.millis.elapsed_since start)
  | _ => exact (hclock rfl).elim

theorem DriverAction.relative_perform (a : DriverAction) :
    (a.perform : Run (Driver σ) Reply).Relative T := by
  cases a with
  | bringUp => exact .reply Driver.relative_bringUp.run
  | restart => exact .bind Driver.relative_restart fun _ => .pure _
  | join ssid pass => exact .reply (Driver.relative_join _ _).run
  | openAccessPoint ssid pass channel encryption mode =>
    exact .reply (Driver.relative_openAccessPoint _ _ _ _ _).run
  | leave => exact .reply Driver.relative_leave
  | setStationAddress ip => exact .reply (Driver.relative_setStationAddress _).run
  | setAccessPointAddress ip => exact .reply (Driver.relative_setAccessPointAddress _).run
  | status => exact .reply Driver.relative_status
  | isListed link => exact .reply (Driver.relative_isListed _).run
  | macAddress => exact .reply Driver.relative_macAddress.run
  | stationAddress => exact .reply Driver.relative_stationAddress.run
  | accessPointAddress => exact .reply Driver.relative_accessPointAddress.run
  | netmask => exact .reply Driver.relative_netmask.run
  | gateway => exact .reply Driver.relative_gateway.run
  | joinedSsid => exact .reply Driver.relative_joinedSsid.run
  | joinedBssid => exact .reply Driver.relative_joinedBssid.run
  | joinedRssi => exact .reply Driver.relative_joinedRssi.run
  | readVersion => exact .reply Driver.relative_readVersion.run
  | cachedVersion => exact .get_bind (fun _ _ => rfl) fun _ => .pure _
  | listNetworks => exact .reply Driver.relative_listNetworks.run
  | networks => exact .get_bind (fun _ _ => rfl) fun _ => .pure _
  | network i => exact .get_bind (fun _ _ => rfl) fun _ => .pure _
  | ping host => exact .reply (Driver.relative_ping _).run
  | listen port => exact .reply (Driver.relative_listen _).run
  | openLink host port link transport => exact .reply (Driver.relative_openLink _ _ _ _).run
  | closeLink link => exact .reply (Driver.relative_closeLink _).run
  | available link => exact .reply (Driver.relative_available _)
  | receiveByte link peek => exact .reply (Driver.relative_receiveByte _ _).run
  | receive link n => exact .reply (Driver.relative_receive _ _).run
  | sendBytes link data => exact .reply (Driver.relative_sendBytes _ _).run
  | sendText link text crlf => exact .reply (Driver.relative_sendText _ _ _).run
  | sendDatagram link host port data => exact .reply (Driver.relative_sendDatagram _ _ _ _).run
  | remoteIp => exact .get_bind (fun _ _ => rfl) fun _ => .pure _
  | remotePort => exact .get_bind (fun _ _ => rfl) fun _ => .pure _
  | delay ms => exact .bind (Driver.relative_delay _) fun _ => .pure _

theorem WifiAction.relative_perform (a : WifiAction) :
    (a.perform : Run (Wifi σ) Reply).Relative T := by
  cases a with
  | bringUp => exact .reply Wifi.relative_bringUp.run
  | join ssid pass => exact .reply (Wifi.relative_join _ _)
  | openAccessPoint ssid pass channel encryption apOnly =>
    exact .reply (Wifi.relative_openAccessPoint _ _ _ _ _)
  | openPublicAccessPoint ssid => exact .reply (Wifi.relative_openAccessPoint _ _ _ _ _)
  | mode => exact .get_bind (fun _ _ => rfl) fun _ => .pure _
  | address => exact .reply Wifi.relative_address.run
  | netmask => exact .reply Wifi.relative_netmask.run
  | gateway => exact .reply Wifi.relative_gateway.run

theorem ClientAction.relative_perform (clients : Nat → Client) (c : Client) (a : ClientAction) :
    (a.perform clients c : Run (Wifi σ) (Reply × Client)).Relative T := by
  cases a with
  | new => exact .pure _
  | copy source => exact .pure _
  | connect host port transport => exact .reply (Client.relative_connect _ _ _).run
  | send data => exact .bind (c.relative_send _) fun _ => .pure _
  | sendText text crlf => exact .bind (c.relative_sendText _ _) fun _ => .pure _
  | available => exact .reply c.relative_available
  | read => exact .bind (c.relative_getByte _) fun _ => .pure _
  | peek => exact .bind (c.relative_getByte _) fun _ => .pure _
  | readAll => exact .bind c.relative_readAll fun _ => .pure _
  | readUpTo n => exact .reply (c.relative_readUpTo _).run
  | flush maxWait => exact .bind (c.relative_flush _) fun _ => .pure _
  | close => exact .reply c.relative_close
  | status => exact .bind c.relative_status fun _ => .pure _
  | connected => exact .bind c.relative_connected fun _ => .pure _
  | remoteIp => exact .get_bind (fun _ _ => rfl) fun _ => .pure _
  | accept =>
    refine .bind Server.relative_accept fun accepted => ?_
    cases accepted <;> exact .pure _

theorem ServerAction.relative_perform (s : Server) (a : ServerAction) :
    (a.perform s : Run (Wifi σ) (Reply × Server)).Relative T := by
  cases a with
  | new port => exact .pure _
  | start => exact .bind s.relative_start fun _ => .pure _
  | broadcast data => exact .reply (Server.relative_broadcast _)
  | status => exact .pure _

theorem UdpAction.relative_perform (u : Udp) (a : UdpAction) :
    (a.perform u : Run (Wifi σ) (Reply × Udp)).Relative T := by
  cases a with
  | listen port => exact .reply (u.relative_listen _).run
  | available => exact .reply u.relative_available
  | setRemote host port => exact .reply (u.relative_setRemote _ _).run
  | endDatagram => exact .pure _
  | send data => exact .reply (u.relative_send _).run
  | read => exact .reply (u.relative_getByte _)
  | peek => exact .reply (u.relative_getByte _)
  | readUpTo n => exact .reply (u.relative_readUpTo _).run
  | flush => exact .bind u.relative_flush fun _ => .pure _
  | close => exact .reply u.relative_close
  | remoteIp => exact .get_bind (fun _ _ => rfl) fun _ => .pure _
  | remotePort => exact .get_bind (fun _ _ => rfl) fun _ => .pure _

/-! ### All operations -/

namespace Session

theorem relative_onWifi {m : Run (Wifi σ) α} (h : m.Relative T) : (onWifi m).Relative T :=
  .focus wifiPart h

/-- **An operation that does not ask for the time is relative.** -/
theorem relative_perform (a : Action) (h : a.readsClock = false) :
    (perform a : Run (Session σ) Reply).Relative T := by
  cases a with
  | engine a =>
    exact relative_onWifi (Wifi.relative_onDriver (Driver.relative_onEngine (a.relative_perform h)))
  | driver a => exact relative_onWifi (Wifi.relative_onDriver a.relative_perform)
  | wifi a => exact relative_onWifi a.relative_perform
  | table a =>
    exact relative_onWifi (.modifyGet (fun _ _ => rfl) (fun _ _ => rfl) fun _ => rfl)
  | client c a =>
    exact .get_bind (fun _ _ => rfl) fun s =>
      .bind (relative_onWifi (a.relative_perform _ _)) fun _ =>
        .bind (.modify (fun _ _ => rfl) fun _ => rfl) fun _ => .pure _
  | server a =>
    exact .get_bind (fun _ _ => rfl) fun s =>
      .bind (relative_onWifi (a.relative_perform _)) fun _ =>
        .bind (.modify (fun _ _ => rfl) fun _ => rfl) fun _ => .pure _
  | udp u a =>
    exact .get_bind (fun _ _ => rfl) fun s =>
      .bind (relative_onWifi (a.relative_perform _)) fun _ =>
        .bind (.modify (fun _ _ => rfl) fun _ => rfl) fun _ => .pure _

/-- **Every operation keeps twins alike.** Readings of the clock may differ, all other answers are the
same. -/
theorem both_perform (a : Action) {s s' : Session σ} (h : T.Alike s s') :
    both (perform a) (perform a)
      (fun r t r' t' => (a.readsClock = false → r = r') ∧ T.Alike t t') s s' := by
  cases a with
  | engine a =>
    exact wifiPart.both_focus (fun _ _ => Wifi.driverPart.both_focus fun _ _ =>
      Driver.enginePart.both_focus fun _ _ => a.both_perform) h
  | _ => exact both_mono (relative_perform _ rfl s s' h) fun _ _ _ _ hr => ⟨fun _ => hr.1, hr.2⟩

end Session

end EspWifi
