import EspWifi.Net.Server
import EspWifi.Net.Udp
import EspWifi.Proofs.Modem.Relative

/-!
# The network on twins

Every operation of the network and of its handles is relative. Only `Client.flush` looks at the clock of
its own, and it compares the time that has passed since it began.

* `Wifi.relative_join`, `Wifi.relative_claim`, `Wifi.relative_closeLink`: the network and its links.
* `Client.relative_getByte`, `Client.relative_flush`, `Client.relative_sendOrClose`: clients.
* `Server.relative_accept`, `Server.relative_broadcast`: the server.
* `Udp.relative_getByte`, `Udp.relative_close`: datagram sockets.
-/

namespace EspWifi

open Run

variable {σ α : Type} [Device σ] {T : TwinDevices σ}

instance : OnDevice (Wifi σ) σ where
  device w := w.device
  replace d w :=
    { w with driver := { w.driver with engine := { w.driver.engine with device := d } } }
  device_replace _ _ := rfl
  replace_replace _ _ _ := rfl

omit [Device σ] in
theorem Wifi.driverPart :
    DevicePart (fun w : Wifi σ => w.driver) fun d w => { w with driver := d } where
  device_get _ := rfl
  device_put _ _ := rfl
  get_replace _ _ := rfl
  put_replace _ _ _ := rfl
  replace_put _ _ _ := rfl

namespace Wifi

theorem relative_onDriver {m : Run (Driver σ) α} (h : m.Relative T) : (onDriver m).Relative T :=
  .focus driverPart h

theorem relative_tryDriver {x : Attempt (Driver σ) α} (h : x.Relative T) :
    (tryDriver x).Relative T := .focus driverPart h

theorem relative_record (level : Level) (message : String) :
    (MonadLog.record level message : Run (Wifi σ) Unit).Relative T :=
  relative_onDriver (Driver.relative_record level message)

/-- A note in the log before something else. -/
theorem relative_logged {level : Level} {message : String} {x : Attempt (Wifi σ) α}
    (h : x.Relative T) : (do MonadLog.record level message; x).Relative T :=
  .bind (.lift (relative_record level message)) fun _ => h

theorem relative_delay (ms : UInt32) : (delay ms : Run (Wifi σ) Unit).Relative T :=
  relative_onDriver (Driver.relative_delay ms)

theorem backlog_eq {w w' : Wifi σ} (h : T.Alike w w') :
    Device.backlog w'.device = Device.backlog w.device := by
  obtain ⟨d', hd', rfl⟩ := h
  exact T.backlog hd'

/-- Two device programs keep networks alike that keep their devices so. -/
theorem both_onDevice {m m' : Run σ α} {V : α → α → Prop}
    (h : ∀ d d', T.rel d d' → both m m' (fun a d b d' => V a b ∧ T.rel d d') d d')
    {w w' : Wifi σ} (hw : T.Alike w w') :
    both (onDevice m) (onDevice m') (fun a v b v' => V a b ∧ T.Alike v v') w w' :=
  driverPart.both_focus
    (fun _ _ => Driver.enginePart.both_focus fun _ _ => Engine.both_onDevice h) hw

/-! ### Networks -/

theorem relative_bringUp : (bringUp : Attempt (Wifi σ) Unit).Relative T :=
  relative_logged (relative_tryDriver Driver.relative_bringUp)

theorem relative_setMode (mode : WifiMode) : (setMode mode : Run (Wifi σ) Unit).Relative T :=
  .modify (fun _ _ => rfl) fun _ => rfl

theorem relative_join (ssid pass : String) : (join ssid pass : Run (Wifi σ) _).Relative T :=
  .bind (relative_setMode _) fun _ =>
    .bind (relative_tryDriver (Driver.relative_join _ _)).run fun _ => .pure _

theorem relative_openAccessPoint (ssid : String) (channel : UInt8) (pass : String)
    (encryption : Encryption) (apOnly : Bool) :
    (openAccessPoint ssid channel pass encryption apOnly : Run (Wifi σ) _).Relative T :=
  .bind (relative_setMode _) fun _ =>
    .bind (relative_tryDriver (Driver.relative_openAccessPoint _ _ _ _ _)).run fun _ => .pure _

theorem relative_address : (address : Attempt (Wifi σ) Ipv4).Relative T := by
  refine .get_bind (fun _ _ => rfl) fun w => ?_
  split
  · exact relative_tryDriver Driver.relative_stationAddress
  · exact relative_tryDriver Driver.relative_accessPointAddress

theorem relative_netmask : (netmask : Attempt (Wifi σ) Ipv4).Relative T := by
  refine .get_bind (fun _ _ => rfl) fun w => ?_
  split
  · exact relative_tryDriver Driver.relative_netmask
  · exact .pure _

theorem relative_gateway : (gateway : Attempt (Wifi σ) Ipv4).Relative T := by
  refine .get_bind (fun _ _ => rfl) fun w => ?_
  split
  · exact relative_tryDriver Driver.relative_gateway
  · exact .pure _

/-! ### Links -/

theorem relative_claim (link : UInt8) : (claim link : Attempt (Wifi σ) Unit).Relative T :=
  .get_bind (fun _ _ => rfl) fun _ => .bind (.liftResult _) fun _ =>
    .modify (fun _ _ => rfl) fun _ => rfl

theorem relative_setPort (link : UInt8) (port : UInt16) :
    (setPort link port : Attempt (Wifi σ) Unit).Relative T :=
  .get_bind (fun _ _ => rfl) fun _ => .bind (.liftResult _) fun _ =>
    .modify (fun _ _ => rfl) fun _ => rfl

theorem relative_release (link : UInt8) : (release link : Run (Wifi σ) Unit).Relative T :=
  .modify (fun _ _ => rfl) fun _ => rfl

theorem relative_freeLink : (freeLink : Run (Wifi σ) _).Relative T :=
  .get_bind (fun _ _ => rfl) fun _ => .pure _

theorem relative_closeLink (link : UInt8) : (closeLink link : Run (Wifi σ) Unit).Relative T := by
  have released : (release link : Run (Wifi σ) Unit).Relative T := relative_release link
  refine .bind (relative_tryDriver (Driver.relative_closeLink _)).run fun result => ?_
  cases result with
  | ok _ => exact released
  | error f => exact .bind (relative_record _ _) fun _ => released

/-- Payload that waits for a link. -/
theorem relative_available (link : Option UInt8) :
    (onDriver (Driver.available link) : Run (Wifi σ) UInt16).Relative T :=
  relative_onDriver (Driver.relative_available link)

end Wifi

open Wifi

namespace Client

theorem relative_connect (host : String) (port : UInt16) (transport : Transport) :
    (connect host port transport : Attempt (Wifi σ) Client).Relative T := by
  refine relative_logged <| .bind (.lift relative_freeLink) fun link => ?_
  cases link with
  | none => exact relative_logged (.throw _)
  | some link =>
    exact .bind (relative_tryDriver (Driver.relative_openLink _ _ _ _)) fun _ =>
      .bind (relative_claim _) fun _ => .pure _

variable (c : Client)

theorem relative_close : (c.close : Run (Wifi σ) Client).Relative T := by
  unfold close
  split
  · exact .pure _
  · exact .bind (relative_record _ _) fun _ => .bind (relative_closeLink _) fun _ => .pure _

theorem relative_sendOrClose (link : UInt8) {send : Attempt (Driver σ) Unit} (h : send.Relative T)
    (length : Nat) : (c.sendOrClose link send length).Relative T := by
  refine .bind (relative_tryDriver h).run fun result => ?_
  cases result with
  | ok _ => exact .pure _
  | error f =>
    exact .bind (relative_record _ _) fun _ => .bind (relative_delay _) fun _ =>
      .bind c.relative_close fun _ => .pure _

theorem relative_send (data : Bytes) : (c.send data : Run (Wifi σ) _).Relative T := by
  unfold send
  split
  · exact .pure _
  · exact .ite (.pure _) (c.relative_sendOrClose _ (Driver.relative_sendBytes _ _) _)

theorem relative_sendText (text : String) (crlf : Bool) :
    (c.sendText text crlf : Run (Wifi σ) _).Relative T := by
  unfold sendText
  split
  · exact .pure _
  · exact .ite (.pure _) (c.relative_sendOrClose _ (Driver.relative_sendText _ _ _) _)

theorem relative_available : (c.available : Run (Wifi σ) UInt16).Relative T := by
  unfold available
  split
  · exact .pure _
  · exact Wifi.relative_available _

theorem relative_getByte (peek : Bool) : (c.getByte peek : Run (Wifi σ) _).Relative T := by
  refine .bind c.relative_available fun _ => .ite (.pure _) ?_
  split
  · exact .pure _
  · refine .bind (relative_tryDriver (Driver.relative_receiveByte _ _)).run fun result => ?_
    cases result with
    | error f => exact .pure _
    | ok received => exact .ite (.bind (relative_release _) fun _ => .pure _) (.pure _)

theorem relative_readUpTo (n : Nat) : (c.readUpTo n : Attempt (Wifi σ) Bytes).Relative T := by
  refine .bind (.lift c.relative_available) fun _ => .ite (.pure _) ?_
  split
  · exact .throw _
  · exact relative_tryDriver (Driver.relative_receive _ _)

theorem relative_readAll : (c.readAll : Run (Wifi σ) _).Relative T := by
  refine Lockstep.get_bind fun w w' hw => ?_
  rw [backlog_eq hw]
  refine Run.Relative.loop (fun (bytes, c) => ?_) _ _
  refine .bind (c.relative_getByte false) fun (byte, c) => ?_
  cases byte <;> exact .pure _

/-- **A flush gives up after as long a time on twins.** -/
theorem relative_flush (maxWait : UInt32) : (c.flush maxWait : Run (Wifi σ) _).Relative T := by
  intro w w' hw
  refine both_bind (both_mono (both_onDevice T.millis hw) ?_)
  rintro start v _ v' ⟨rfl, hv⟩
  have elapsed : Lockstep T.Alike T.Alike (Wifi.onDevice (elapsed start) : Run (Wifi σ) UInt32)
      (Wifi.onDevice (elapsed (start + T.lead))) := fun _ _ => both_onDevice (T.millis.elapsed start)
  refine Lockstep.get_bind (fun u u' hu => ?_) v v' hv
  rw [backlog_eq hu]
  refine Lockstep.loop (fun c => Lockstep.bind c.relative_available fun _ => .ite (.pure _) ?_) _ _
  exact Lockstep.bind elapsed fun _ => .ite (.pure _) <|
    Lockstep.bind (c.relative_getByte false) fun _ => .pure _

theorem relative_status : (c.status : Run (Wifi σ) _).Relative T := by
  unfold status
  split
  · exact .pure _
  · refine .bind (Wifi.relative_available _) fun _ => .ite (.pure _) ?_
    refine .bind (relative_tryDriver (Driver.relative_isListed _)).run fun result => ?_
    split
    · exact .pure _
    · exact .bind (relative_release _) fun _ => .pure _

theorem relative_connected : (c.connected : Run (Wifi σ) _).Relative T :=
  .bind c.relative_status fun _ => .pure _

end Client

namespace Server

theorem relative_start (s : Server) : (s.start : Run (Wifi σ) _).Relative T := by
  refine .bind (relative_claim _).run fun result => ?_
  cases result with
  | error f => exact .pure _
  | ok _ =>
    refine .bind (relative_tryDriver (Driver.relative_listen _)).run fun result => ?_
    cases result <;> exact .bind (relative_record _ _) fun _ => .pure _

theorem relative_accept : (accept : Run (Wifi σ) _).Relative T := by
  refine .bind (Wifi.relative_available _) fun _ => .ite (.pure _) ?_
  refine .get_bind (fun _ _ => rfl) fun _ => .bind (relative_record _ _) fun _ =>
    .bind (relative_claim _).run fun result => ?_
  cases result <;> exact .pure _

theorem relative_sendEach (data : Bytes) (links : List UInt8) :
    (sendEach data links : Run (Wifi σ) Nat).Relative T := by
  induction links with
  | nil => exact .pure _
  | cons link links ih =>
    exact .bind (Client.relative_send _ _) fun _ => .bind ih fun _ => .pure _

theorem relative_broadcast (data : Bytes) : (broadcast data : Run (Wifi σ) Nat).Relative T :=
  .get_bind (fun _ _ => rfl) fun _ => relative_sendEach _ _

end Server

namespace Udp

variable (u : Udp)

theorem relative_listen (port : UInt16) : (u.listen port : Attempt (Wifi σ) Udp).Relative T := by
  refine .bind (.lift relative_freeLink) fun link => ?_
  cases link with
  | none => exact relative_logged (.throw _)
  | some link =>
    exact .bind (relative_tryDriver (Driver.relative_openLink _ _ _ _)) fun _ =>
      .bind (relative_claim _) fun _ => .bind (relative_setPort _ _) fun _ =>
        relative_logged (.pure _)

theorem relative_available : (u.available : Run (Wifi σ) UInt16).Relative T := by
  unfold available
  split
  · exact .pure _
  · exact Wifi.relative_available _

theorem relative_linkOrFree : (u.linkOrFree : Attempt (Wifi σ) UInt8).Relative T := by
  unfold linkOrFree
  split
  · exact .pure _
  · refine .bind (.lift relative_freeLink) fun link => ?_
    cases link with
    | some link => exact .pure _
    | none => exact .throw _

theorem relative_setRemote (host : String) (port : UInt16) :
    (u.setRemote host port : Attempt (Wifi σ) Udp).Relative T :=
  .ite (.throw _) (.bind u.relative_linkOrFree fun _ => .bind (relative_claim _) fun _ => .pure _)

theorem relative_send (data : Bytes) : (u.send data : Attempt (Wifi σ) Nat).Relative T := by
  unfold send
  split
  · exact .throw _
  · exact .bind (relative_tryDriver (Driver.relative_sendDatagram _ _ _ _)) fun _ => .pure _

theorem relative_getByte (peek : Bool) : (u.getByte peek : Run (Wifi σ) _).Relative T := by
  refine .bind u.relative_available fun _ => .ite (.pure _) ?_
  split
  · exact .pure _
  · refine .bind (relative_tryDriver (Driver.relative_receiveByte _ _)).run fun result => ?_
    cases result <;> exact .pure _

theorem relative_readUpTo (n : Nat) : (u.readUpTo n : Attempt (Wifi σ) Bytes).Relative T := by
  refine .bind (.lift u.relative_available) fun _ => .ite (.pure _) ?_
  split
  · exact .throw _
  · exact relative_tryDriver (Driver.relative_receive _ _)

theorem relative_skip (n : Nat) : (u.skip n : Run (Wifi σ) Unit).Relative T := by
  induction n with
  | zero => exact .pure _
  | succ n ih =>
    refine .bind (u.relative_getByte false) fun byte => ?_
    cases byte with
    | none => exact .pure _
    | some b => exact ih

theorem relative_flush : (u.flush : Run (Wifi σ) Unit).Relative T :=
  .bind u.relative_available fun _ => u.relative_skip _

theorem relative_close : (u.close : Run (Wifi σ) Udp).Relative T := by
  unfold close
  split
  · exact .pure _
  · exact .bind u.relative_flush fun _ => .bind (relative_closeLink _) fun _ => .pure _

end Udp

end EspWifi
