import EspWifi.Firmware
import EspWifi.Proofs.Firmware.Order
import EspWifi.Proofs.Modem.Turns

/-!
# The driver in the conversation of the firmware

* `Firmware.ends_probe`, `Firmware.ends_restart`, `Firmware.ends_driverBringUp`: up to the network.
* `Firmware.ends_driverJoin`: a try to join it.
* `Firmware.ends_driverListen`: the server.
* `Firmware.ends_sendBytes`, `Firmware.ends_driverCloseLink`: a send, and what follows one that fails.
-/

namespace EspWifi.Firmware

open Run LinkEvent Recorder Conversation

variable {σ α : Type} [Device σ] [Pins σ] {d₀ : σ} {d : Driver (Recorder σ)}

variable (hd : KeepsUp d₀)

include hd

/-- **The module is probed until it answers**, as often as may be. -/
theorem ends_probe (timeout : UInt32) (n : Nat) (h : order.At d₀ (.probing n) d) :
    ends order.Orderly (Driver.probe timeout n)
      (fun answered d' => order.At d₀ (if answered then .settingUp setUpCommands else .probing 0) d')
      d := by
  induction n generalizing d with
  | zero => exact h
  | succ n ih =>
    have due : order.asks (.probing (n + 1)) (lineBytes (String.join ["AT"])) Tag.ok.Answers
        (.settingUp setUpCommands) (.probing n) := .probe
    unfold Driver.probe
    rw [ends_bind, Attempt.ends_run]
    have again {d' : Driver (Recorder σ)} (h : order.Unanswered d₀ (.probing n) d') :
        ends order.Orderly (do Driver.delay 1000; Driver.probe timeout n)
          (fun answered d' =>
            order.At d₀ (if answered then .settingUp setUpCommands else .probing 0) d') d' := by
      exact ends_then (ends_delay_unanswered h 1000) fun _ _ h => ih h
    refine ends_tryEngine.2 (Attempt.ends_mono (ends_request hd h (.inr ⟨_, _, _, due⟩) timeout) ?_ ?_)
    · rintro t e ⟨c, h, answer⟩
      have other (ht : t ≠ .ok) :
          order.Unanswered d₀ (.probing n) ({ d with engine := e } : Driver (Recorder σ)) :=
        ⟨_, _, _, _, c, due, h, fun hok => ht (answer.unique hok)⟩
      cases t with
      | ok => exact h.answered due answer
      | _ => exact again (other nofun)
    · rintro f e ⟨c, h, answer⟩
      exact again ⟨_, _, _, _, c, due, h, answer .ok⟩

/-- The set-up commands are sent one after the other. -/
theorem ends_setUp_next {text : String} {left : List String} (known : text ∈ setUpCommands)
    (h : order.At d₀ (.settingUp (text :: left)) d) {m : Run (Driver (Recorder σ)) α}
    {Q : α → Driver (Recorder σ) → Prop}
    (hm : ∀ d', order.At d₀ (.settingUp left) d' → ends order.Orderly m Q d') :
    ends order.Orderly (do Driver.setUp text; m) Q d :=
  ends_bind.2 (ends_mono (ends_setUp hd h (.setUp known)) (fun _ h => h) fun _ d' h' => hm d' h')

/-- **The module is restarted and set up.** -/
theorem ends_restart (h : order.At d₀ (.settingUp setUpCommands) d) :
    ends order.Orderly Driver.restart (fun _ d' => order.At d₀ (.settingUp ["AT+GMR"]) d') d := by
  have delay (ms : UInt32) : Keeps (Adds IsQuiet) (Driver.delay ms : Run (Driver (Recorder σ)) Unit) :=
    keeps_pause (fun _ => trivial) ms
  unfold Driver.restart
  refine ends_quiet_bind h (keeps_driverLog _ _) fun _ d h => ?_
  refine ends_setUp_next hd (by decide) h fun d h => ?_
  refine ends_quiet_bind h (delay _) fun _ d h => ?_
  refine ends_quiet_bind h (keeps_onEngine (keeps_drain (fun _ => trivial) _)) fun _ d h => ?_
  refine ends_setUp_next hd (by decide) h fun d h => ?_
  refine ends_setUp_next hd (by decide) h fun d h => ?_
  refine ends_quiet_bind h (delay _) fun _ d h => ?_
  refine ends_setUp_next hd (by decide) h fun d h => ?_
  refine ends_setUp_next hd (by decide) h fun d h => ?_
  refine ends_setUp_next hd (by decide) h fun d h => ?_
  refine ends_setUp_next hd (by decide) h fun d h => ?_
  refine ends_quiet_bind h (delay _) fun _ d h => ?_
  exact ends_quiet h (keeps_modify fun _ => ⟨rfl, rfl⟩) fun _ _ h => h

theorem ends_readVersion (h : order.At d₀ (.settingUp ["AT+GMR"]) d) :
    Attempt.ends order.Orderly Driver.readVersion (fun _ d' => order.At d₀ (.settingUp []) d')
      (fun _ d' => order.At d₀ (.settingUp []) d') d := by
  have due : order.tells (.settingUp ["AT+GMR"]) (lineBytes "AT+GMR") (.settingUp []) :=
    .setUp (by decide)
  unfold Driver.readVersion
  refine ends_quiet_lift h (keeps_driverLog _ _) fun _ d h => ?_
  refine ends_quiet_lift h (m := modify _) (keeps_modify fun _ => ⟨rfl, rfl⟩) fun _ d h => ?_
  rw [Attempt.ends_bind]
  refine ends_tryEngine.2 (Attempt.ends_mono (ends_queryField hd h due _ _ _) (fun version e h => ?_)
    fun _ _ h => h)
  exact h

/-- **The module is brought up, or it has answered none of the probes.** -/
theorem ends_driverBringUp (h : order.At d₀ (.probing 5) d) :
    Attempt.ends order.Orderly Driver.bringUp (fun _ d' => order.At d₀ (.settingUp []) d')
      (fun _ d' => order.At d₀ (.probing 0) d') d := by
  unfold Driver.bringUp
  refine ends_quiet_lift h (keeps_driverLog _ _) fun _ d h => ?_
  refine ends_quiet_lift h keeps_timeouts fun timeouts d h => ?_
  refine Attempt.ends_lift_then (ends_probe hd _ _ h) ?_
  intro answered d h
  cases answered with
  | false =>
    refine ends_quiet_lift h (keeps_driverLog _ _) fun _ d h => ?_
    exact h
  | true =>
    show Attempt.ends _ (do lift Driver.restart; _) _ _ _
    refine Attempt.ends_lift_then (ends_restart hd h) fun _ d h => ?_
    have report (version : String) {d : Driver (Recorder σ)} (h : order.At d₀ (.settingUp []) d) :
        Attempt.ends order.Orderly
          (if Driver.isSupported version then logInfo s!"Initialization successful - {version}"
            else logWarn s!"Unsupported firmware: {version}")
          (fun _ d' => order.At d₀ (.settingUp []) d') (fun _ d' => order.At d₀ (.probing 0) d') d := by
      split
      · exact Attempt.ends_lift.2 (ends_quiet h (keeps_driverLog _ _) fun _ _ h => h)
      · exact Attempt.ends_lift.2 (ends_quiet h (keeps_driverLog _ _) fun _ _ h => h)
    rw [Attempt.ends_bind]
    refine Attempt.ends_lift.2 (Attempt.ends_run.2 (Attempt.ends_mono (ends_readVersion hd h) ?_ ?_))
    · exact fun version _ h => report version h
    · exact fun _ _ h => report "" h

/-- **A try to join the network.** -/
theorem ends_driverJoin (h : order.At d₀ (.settingUp []) d) :
    Attempt.ends order.Orderly (Driver.join ssid password)
      (fun _ d' => order.At d₀ (.starting startCommands) d')
      (fun _ d' => order.At d₀ (.settingUp []) d') d := by
  have hline : String.join
      (["AT+CWJAP_CUR="] ++ Driver.quoted ssid ++ [","] ++ Driver.quoted password) = joinCommand := by
    decide
  have due : order.asks (.settingUp []) (lineBytes (String.join
      (["AT+CWJAP_CUR="] ++ Driver.quoted ssid ++ [","] ++ Driver.quoted password)))
      Tag.ok.Answers (.starting startCommands) (.settingUp []) := by
    rw [hline]
    exact .join
  unfold Driver.join
  rw [Attempt.ends_mk]
  refine ends_quiet_bind h (keeps_driverLog _ _) fun _ d h => ?_
  refine ends_quiet_bind h keeps_timeouts fun timeouts d h => ?_
  rw [ends_bind, Attempt.ends_run]
  refine Attempt.ends_mono (ends_command hd h due _) (fun _ d h => ?_) fun f d h => ?_
  · exact ends_quiet_bind h (keeps_driverLog _ _) fun _ d h => h
  · show ends _ (do logWarn _; _) _ _
    rw [ends_bind]
    refine ends_unanswered h (keeps_driverLog _ _) fun _ d h => ?_
    refine ends_then (ends_delay_unanswered h _) fun _ d h => ?_
    exact ends_quiet_bind h (keeps_onEngine (keeps_drain (fun _ => trivial) _)) fun _ d h => h

/-- The address is asked for. -/
theorem ends_stationAddress (h : order.At d₀ (.starting startCommands) d) :
    Attempt.ends order.Orderly Driver.stationAddress
      (fun _ d' => order.At d₀ (.starting ["AT+CIPSERVER=1,23"]) d')
      (fun _ d' => order.At d₀ (.starting ["AT+CIPSERVER=1,23"]) d') d := by
  have due : order.tells (.starting startCommands) (lineBytes "AT+CIFSR")
      (.starting ["AT+CIPSERVER=1,23"]) := .start (by decide)
  unfold Driver.stationAddress Driver.addressField
  refine ends_quiet_lift h (keeps_driverLog _ _) fun _ d h => ?_
  rw [Attempt.ends_bind]
  refine Attempt.ends_mono (ends_query hd h due) (fun text d h => ?_) fun _ _ h => h
  cases Ipv4.ofText? text <;> exact h

/-- The server is started. -/
theorem ends_driverListen (h : order.At d₀ (.starting ["AT+CIPSERVER=1,23"]) d) :
    Attempt.ends order.Orderly (Driver.listen serverPort) (fun _ d' => order.At d₀ (.starting []) d')
      (fun _ d' => order.At d₀ (.starting []) d') d := by
  have hline : String.join ["AT+CIPSERVER=1,", toString serverPort] = "AT+CIPSERVER=1,23" := by decide
  have due : order.tells (.starting ["AT+CIPSERVER=1,23"])
      (lineBytes (String.join ["AT+CIPSERVER=1,", toString serverPort])) (.starting []) := by
    rw [hline]
    exact .start (by decide)
  unfold Driver.listen
  refine ends_quiet_lift h (keeps_driverLog _ _) fun _ d h => ?_
  refine ends_quiet_lift h keeps_timeouts fun timeouts d h => ?_
  exact ends_told hd h due _

/-- **A send** is confirmed, or has failed. -/
theorem ends_sendBytes {link : UInt8} {data : Bytes} (isLink : link ≤ 3) (notEmpty : 1 ≤ data.length)
    (short : data.length ≤ 64) (h : order.At d₀ (.starting []) d) :
    Attempt.ends order.Orderly (Driver.sendBytes link data)
      (fun _ d' => order.At d₀ (.starting []) d')
      (fun _ d' => order.Unanswered d₀ (.failed link) d') d := by
  have hline : String.join ["AT+CIPSEND=", toString link, ",", toString data.length] =
      sendCommand link data.length := by
    simp only [String.join_cons, String.join_nil, String.append_empty, sendCommand,
      ← String.append_assoc]
    rfl
  have due : order.asks (.starting [])
      (lineBytes (String.join ["AT+CIPSEND=", toString link, ",", toString data.length]))
      (ascii '>' ∈ ·) (.sending link data.length) (.failed link) := by
    rw [hline]
    exact .send isLink notEmpty short
  unfold Driver.sendBytes
  refine ends_quiet_lift h (keeps_driverLog _ _) fun _ d h => ?_
  rw [Attempt.ends_bind]
  refine Attempt.ends_mono (ends_announce hd h due) (fun _ d h => ?_) fun _ _ h => h
  exact ends_payload hd h (.payload rfl short)

/-- A link is closed after a failed send on it. -/
theorem ends_driverCloseLink {link : UInt8} (h : order.At d₀ (.failed link) d) :
    Attempt.ends order.Orderly (Driver.closeLink link) (fun _ d' => order.At d₀ (.starting []) d')
      (fun _ d' => order.At d₀ (.starting []) d') d := by
  have hline : String.join ["AT+CIPCLOSE=", toString link] = closeCommand link := by
    rw [String.join_cons, join_singleton]
    rfl
  have due : order.tells (.failed link) (lineBytes (String.join ["AT+CIPCLOSE=", toString link]))
      (.starting []) := by
    rw [hline]
    exact .close
  unfold Driver.closeLink
  refine ends_quiet_lift h (keeps_driverLog _ _) fun _ d h => ?_
  refine ends_quiet_lift h keeps_timeouts fun timeouts d h => ?_
  exact ends_told hd h due _

end EspWifi.Firmware
