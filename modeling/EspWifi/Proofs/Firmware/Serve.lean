import EspWifi.Proofs.Firmware.BringUp
import EspWifi.Proofs.Net.Recorded
import EspWifi.Proofs.Session.Unblocked

/-!
# The order of the firmware's commands

* `Firmware.ends_joinNetwork`, `Firmware.ends_echo`, `Firmware.ends_blink`: the loops of the firmware.
* `Firmware.serve_inOrder`: **what passes over the link is in order**, for every device with a transmitter that
  keeps up and however long the firmware runs.
* `Firmware.serve_outOfOrder`: it is not enough that the transmitter never stays blocked.
-/

namespace EspWifi.Firmware

open Run LinkEvent Recorder Conversation

variable {σ α : Type} {w : Wifi (Recorder σ)}

theorem ends_onDriver {m : Run (Driver (Recorder σ)) α} {Q : α → Wifi (Recorder σ) → Prop} :
    ends order.Orderly (onDriver m) Q w ↔
      ends order.Orderly m (fun a d => Q a { w with driver := d }) w.driver := ends_focus

theorem ends_tryDriver {x : Attempt (Driver (Recorder σ)) α} {Q : α → Wifi (Recorder σ) → Prop}
    {F : Fault → Wifi (Recorder σ) → Prop} :
    Attempt.ends order.Orderly (tryDriver x) Q F w ↔
      Attempt.ends order.Orderly x (fun a d => Q a { w with driver := d })
        (fun f d => F f { w with driver := d }) w.driver := Attempt.ends_focus

variable [Device σ] [Pins σ] {d₀ : σ}

/-- **To a module that has answered none of the probes nothing is sent any more.** -/
theorem ends_blink (rounds : Nat) (lamp : Lamp) (h : order.At d₀ (.probing 0) w)
    {Q : Empty → Wifi (Recorder σ) → Prop} : ends order.Orderly (blink rounds lamp) Q w := by
  refine ends_forever (I := fun _ w => order.At d₀ (.probing 0) w) (fun _ _ h => h.orderly)
    (fun lamp w h => ?_) h
  refine ends_quiet_bind h (keeps_lampSet lamp _) fun lamp w h => ?_
  exact ends_quiet_bind h (keeps_wifiDelay (fun _ => trivial) _) fun _ w h => h

section

variable (hd : KeepsUp d₀)

include hd

/-- **Joining is tried until the network is joined.** The firmware is a station then. -/
theorem ends_joinNetwork (rounds : Nat) (h : order.At d₀ (.settingUp []) w) :
    ends order.Orderly (joinNetwork rounds) (fun _ w' =>
      order.At d₀ (.starting startCommands) w' ∧ w'.mode = some .station) w := by
  refine ends_loop (I := fun _ w => order.At d₀ (.settingUp []) w) (fun _ _ h => h.orderly)
    (fun _ w h => ?_) _ _ _ h
  unfold Wifi.join Wifi.setMode
  simp only [ends_bind, ends_modify, ends_pure]
  rw [Attempt.ends_run]
  refine ends_tryDriver.2 (Attempt.ends_mono (ends_driverJoin hd h) (fun _ d h => ?_) fun f d h => ?_)
  · exact ⟨h, rfl⟩
  · show ends _ (do logWarn _; _) _ _
    refine ends_quiet_bind h (keeps_wifiLog _ _) fun _ w h => ?_
    exact ends_quiet_bind h (keeps_wifiDelay (fun _ => trivial) _) fun _ w h => h

theorem ends_reportAddress (h : order.At d₀ (.starting startCommands) w)
    (hmode : w.mode = some .station) :
    ends order.Orderly reportAddress (fun _ w' => order.At d₀ (.starting ["AT+CIPSERVER=1,23"]) w')
      w := by
  unfold reportAddress Wifi.address
  rw [ends_bind, Attempt.ends_run, Attempt.ends_bind, Attempt.ends_get, hmode]
  refine ends_tryDriver.2 (Attempt.ends_mono (ends_stationAddress hd h) (fun ip d h => ?_)
    fun f d h => ?_)
  · exact ends_quiet h (keeps_wifiLog _ _) fun _ _ h => h
  · exact ends_quiet h (keeps_wifiLog _ _) fun _ _ h => h

/-- The link of the server is always there to be claimed. -/
theorem ends_serverStart (h : order.At d₀ (.starting ["AT+CIPSERVER=1,23"]) w) :
    ends order.Orderly (Server.start { port := serverPort })
      (fun _ w' => order.At d₀ (.starting []) w') w := by
  obtain ⟨table, htable⟩ : ∃ table, w.links.claim serverLink = .ok table :=
    LinkTable.claim_ok (by decide)
  unfold Server.start Wifi.claim
  rw [ends_bind, Attempt.ends_run, Attempt.ends_bind, Attempt.ends_get, Attempt.ends_bind,
    Attempt.ends_liftResult, htable]
  show ends _ (do let r ← (tryDriver (Driver.listen serverPort)).run; _) _ { w with links := table }
  rw [ends_bind, Attempt.ends_run]
  refine ends_tryDriver.2 (Attempt.ends_mono (ends_driverListen hd h) (fun _ d h => ?_)
    fun f d h => ?_)
  · exact ends_quiet_bind h (keeps_wifiLog _ _) fun _ w h => h
  · exact ends_quiet_bind h (keeps_wifiLog _ _) fun _ w h => h

theorem ends_listen (h : order.At d₀ (.starting ["AT+CIPSERVER=1,23"]) w) :
    ends order.Orderly listen (fun _ w' => order.At d₀ (.starting []) w') w := by
  unfold listen
  refine ends_then (ends_serverStart hd h) ?_
  rintro ⟨r, server⟩ w h
  cases r with
  | ok _ => exact h
  | error f => exact ends_quiet h (keeps_wifiLog _ _) fun _ _ h => h

/-- A link is closed and given back. -/
theorem ends_close {link : UInt8} (h : order.At d₀ (.failed link) w) :
    ends order.Orderly (Client.close ⟨some link⟩) (fun _ w' => order.At d₀ (.starting []) w') w := by
  unfold Client.close Wifi.closeLink
  refine ends_quiet_bind h (keeps_wifiLog _ _) fun _ w h => ?_
  rw [ends_bind, ends_bind, Attempt.ends_run]
  refine ends_tryDriver.2 (Attempt.ends_mono (ends_driverCloseLink hd h) (fun _ d h => ?_)
    fun f d h => ?_)
  · exact ends_quiet h (keeps_release link) fun _ _ h => h
  · refine ends_quiet_bind h (keeps_wifiLog _ _) fun _ w h => ?_
    exact ends_quiet h (keeps_release link) fun _ _ h => h

/-- **A send that fails is followed by the close of its link.** -/
theorem ends_send {link : UInt8} {data : Bytes} (isLink : link ≤ 3) (short : data.length ≤ 64)
    (h : order.At d₀ (.starting []) w) :
    ends order.Orderly (Client.send ⟨some link⟩ data) (fun r w' =>
      order.At d₀ (.starting []) w' ∧ (∀ n, r.1 = .ok n → r.2 = ⟨some link⟩)) w := by
  unfold Client.send
  dsimp only
  split
  · exact ⟨h, fun _ _ => rfl⟩
  rename_i hdata
  have notEmpty : 1 ≤ data.length := by
    rw [List.isEmpty_iff] at hdata
    exact List.length_pos_of_ne_nil hdata
  unfold Client.sendOrClose
  rw [ends_bind, Attempt.ends_run]
  refine ends_tryDriver.2 (Attempt.ends_mono (ends_sendBytes hd isLink notEmpty short h)
    (fun _ d h => ?_) fun f d h => ?_)
  · exact ⟨h, fun _ _ => rfl⟩
  · show ends _ (do logError _; _) _ _
    rw [ends_bind]
    refine ends_unanswered h (keeps_wifiLog _ _) fun _ w h => ?_
    rw [ends_bind]
    refine ends_onDriver.2 (ends_mono (ends_delay_unanswered h _) (fun _ h => h) fun _ d h => ?_)
    refine ends_then (ends_close hd h) fun c w h => ?_
    exact ⟨h, nofun⟩

/-- **What a client sends is sent back** in pieces. -/
theorem ends_echo (rounds : Nat) {link : UInt8} (isLink : link ≤ 3)
    (h : order.At d₀ (.starting []) w) :
    ends order.Orderly (echo rounds ⟨some link⟩) (fun _ w' => order.At d₀ (.starting []) w') w := by
  -- as long as the sends succeed the client keeps its link
  refine ends_loop (I := fun c w => order.At d₀ (.starting []) w ∧ c = ⟨some link⟩)
    (fun _ _ h => h.1.orderly) (fun c w h => ?_) _ _ _ ⟨h, rfl⟩
  obtain ⟨h, rfl⟩ := h
  refine ends_then (ends_of_wp (ends_quiet h (keeps_readUpTo (fun _ => trivial) _ _) fun _ _ h => h)
    (Client.wp_readUpTo_length _ echoChunk)) ?_
  rintro r w ⟨h, hlength⟩
  have stop (message : String) {w : Wifi (Recorder σ)} (h : order.At d₀ (.starting []) w) :
      ends order.Orderly (do logWarn message; return (.finish () : Round Client Unit))
        (afterRound (fun c w => order.At d₀ (.starting []) w ∧ c = ⟨some link⟩)
          fun _ w => order.At d₀ (.starting []) w) w :=
    ends_quiet_bind h (keeps_wifiLog _ _) fun _ _ h => h
  cases r with
  | error f => exact stop _ h
  | ok data =>
    cases data with
    | nil => exact h
    | cons b data =>
      show ends _ (do let r ← Client.send ⟨some link⟩ (b :: data); _) _ _
      refine ends_then (ends_send hd isLink hlength h) ?_
      rintro ⟨r, c⟩ w ⟨h, hc⟩
      cases r with
      | ok n => exact ⟨h, hc n rfl⟩
      | error f => exact stop _ h

theorem ends_serveNext (rounds : Nat) (lamp : Lamp) (h : order.At d₀ (.starting []) w) :
    ends order.Orderly (serveNext rounds lamp) (fun _ w' => order.At d₀ (.starting []) w') w := by
  unfold serveNext
  refine ends_then (ends_of_wp (ends_quiet h (keeps_accept fun _ => trivial) fun _ _ h => h)
    Server.wp_accept_link) ?_
  rintro client w ⟨h, hlink⟩
  cases client with
  | none => exact h
  | some client =>
    obtain ⟨link, isLink, rfl⟩ := hlink client rfl
    refine ends_quiet_bind h (keeps_lampSet lamp true) fun lamp w h => ?_
    refine ends_then (ends_echo hd rounds isLink h) fun _ w h => ?_
    exact ends_quiet h (keeps_lampSet lamp false) fun _ w h => h

/-- The firmware keeps to its conversation from any state in which it is at the start of it. -/
theorem ends_serve (rounds : Nat) (lamp : Lamp) (h : order.At d₀ (.probing 5) w) :
    ends order.Orderly (serve rounds lamp) (fun _ => order.Orderly) w := by
  unfold serve Wifi.bringUp
  rw [ends_bind, Attempt.ends_run]
  refine ends_quiet_lift h (keeps_wifiLog _ _) fun _ w h => ?_
  refine ends_tryDriver.2 (Attempt.ends_mono (ends_driverBringUp hd h) (fun _ d h => ?_)
    fun f d h => ?_)
  · show ends _ (do joinNetwork rounds; _) _ _
    refine ends_then (ends_joinNetwork hd rounds h) ?_
    rintro _ w ⟨h, hmode⟩
    refine ends_then (ends_reportAddress hd h hmode) fun _ w h => ?_
    refine ends_then (ends_listen hd h) fun _ w h => ?_
    exact ends_forever (I := fun _ w => order.At d₀ (.starting []) w) (fun _ _ h => h.orderly)
      (fun lamp w h => ends_serveNext hd rounds lamp h) h
  · exact ends_quiet_bind h (keeps_wifiLog _ _) fun _ w h => ends_blink rounds lamp h

end

/-- **What passes over the link is in order.** Whatever the module, the line and the clock do, and as long as
the transmitter keeps up, the firmware serves until it is cut short, and what was sent and heard by then is
the beginning of a conversation in `order`. As long as none of the probes was answered, no more than five of
them were sent, and nothing else. -/
theorem serve_inOrder {d : σ} (hd : KeepsUp d) (rounds : Nat) (lamp : Lamp) :
    ∃ halt w, serve rounds lamp (Wifi.ofDevice ({ device := d } : Recorder σ) {}) = .error halt w ∧
      order.InOrder w.device.events ∧
      (¬ Probed w.device.events → sentBytes w.device.events <+: probes 5) := by
  have start : order.At d (.probing 5) (Wifi.ofDevice ({ device := d } : Recorder σ) {}) :=
    ⟨⟨.refl, rfl⟩, .start⟩
  cases hrun : serve rounds lamp (Wifi.ofDevice ({ device := d } : Recorder σ) {}) with
  | ok never w => exact never.elim
  | error halt w =>
    have h : order.Orderly w := of_ends_error (ends_serve hd rounds lamp start) hrun
    exact ⟨halt, w, rfl, h, sentBytes_of_not_probed h⟩

/-- A module that answers whatever it is asked, and has a client who says `hi`. -/
def willing : Wifi (Recorder Bench) :=
  let ok := utf8 "\r\nOK\r\n"
  let replies := List.replicate 8 ok ++
    [utf8 "SDK version:1.5.4\r\n" ++ ok, ok, utf8 ":STAIP,\"10.0.0.2\"\r\n" ++ ok,
      ok ++ utf8 "+IPD,0,2,10,0,0,1,99:hi", utf8 "> ", utf8 "\r\nSEND OK\r\n"]
  .ofDevice { device := { replies := replies.map fun r => [(0, r)] } } {}

/-- The conversation with a willing module is in order, and goes all the way. -/
theorem serve_inOrder_willing :
    KeepsUp willing.device.device ∧ ∃ halt w,
      serve 2 { pin := .pb0, activeHigh := true } willing = .error halt w ∧
      order.InOrder w.device.events ∧
      (¬ Probed w.device.events → sentBytes w.device.events <+: probes 5) ∧
      sentBytes w.device.events =
        ("AT" :: setUpCommands ++ joinCommand :: startCommands ++ [sendCommand 0 2]).flatMap
          lineBytes ++ utf8 "hi" := by
  have free : willing.device.device.Free := ⟨rfl, rfl⟩
  obtain ⟨halt, w, hrun, inOrder, unanswered⟩ :=
    serve_inOrder free.keepsUp 2 { pin := .pb0, activeHigh := true }
  have hsent : sentBytes ((serve 2 { pin := .pb0, activeHigh := true }).final willing).device.events =
      ("AT" :: setUpCommands ++ joinCommand :: startCommands ++ [sendCommand 0 2]).flatMap
        lineBytes ++ utf8 "hi" := by
    decide +kernel
  have hfinal : (serve 2 { pin := .pb0, activeHigh := true }).final willing = w := final_of_error hrun
  rw [hfinal] at hsent
  exact ⟨free.keepsUp, halt, w, hrun, inOrder, unanswered, hsent⟩

/-- A module that answers the first probe, behind a transmitter that is slow after that. -/
def sluggish : Wifi (Recorder Bench) :=
  .ofDevice { device := { Bench.slow [4] with replies := [[(0, utf8 "\r\nOK\r\n")]] } } {}

/-- **It is not enough that the transmitter never stays blocked.** If it is too slow for a command, the
firmware gives the command up in the middle of its line and goes on with the next one. -/
theorem serve_outOfOrder :
    NeverBlocked sluggish.device.device ∧ ∃ halt w,
      serve 0 { pin := .pb0, activeHigh := true } sluggish = .error halt w ∧
      utf8 "AT\r\nAT+RATE0\r\n" <+: sentBytes w.device.events ∧
      ¬ order.InOrder w.device.events := by
  have yields : sluggish.device.device.Yields 3 := ⟨by decide, rfl⟩
  obtain ⟨halt, w, hrun⟩ : ∃ halt w,
      serve 0 { pin := .pb0, activeHigh := true } sluggish = .error halt w := by
    cases hrun : serve 0 { pin := .pb0, activeHigh := true } sluggish with
    | ok never w => exact never.elim
    | error halt w => exact ⟨halt, w, rfl⟩
  have hsent : utf8 "AT\r\nAT+RATE0\r\n" <+:
      sentBytes ((serve 0 { pin := .pb0, activeHigh := true }).final sluggish).device.events := by
    decide +kernel
  rw [final_of_error hrun] at hsent
  refine ⟨yields.neverBlocked (by decide +kernel), halt, w, hrun, hsent, fun inOrder => ?_⟩
  -- after no number of probes are these bytes due
  obtain ⟨n, once, atMost, hopening⟩ := sentBytes_opening inOrder
  have hcomparable : utf8 "AT\r\nAT+RATE0\r\n" <+: probes n ++ lines setUpCommands ∨
      probes n ++ lines setUpCommands <+: utf8 "AT\r\nAT+RATE0\r\n" := by
    rcases hopening with h | h
    · exact .inl (hsent.trans h)
    · exact List.prefix_or_prefix_of_prefix hsent h
  have notDue : ∀ n ≤ 5, ¬ (utf8 "AT\r\nAT+RATE0\r\n" <+: probes n ++ lines setUpCommands ∨
      probes n ++ lines setUpCommands <+: utf8 "AT\r\nAT+RATE0\r\n") := by
    decide +kernel
  exact notDue n atMost hcomparable

end EspWifi.Firmware
