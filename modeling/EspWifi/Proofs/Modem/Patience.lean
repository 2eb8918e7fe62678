import EspWifi.Proofs.At.Pace
import EspWifi.Proofs.Modem.Sending

/-!
# Sends that return

A send waits for the transmitter, for its prompt and for its confirmation, and gives each of them up when
the timeout has passed. So it returns on every clock that passes the timeouts, whatever the module and
the transmitter do.

* `Driver.Patient`: the clock passes the timeouts of a send.
* `Driver.returns_command`, `Driver.Patient.returns_send`: **a command returns, and so does a send.**
-/

namespace EspWifi

open Run

namespace Driver

variable {α : Type} {d : Driver Bench}

/-- **The clock passes the timeouts of a send.** -/
structure Patient (d : Driver Bench) : Prop where
  prompt : d.engine.device.Passes d.engine.timeouts.prompt
  send : d.engine.device.Passes d.engine.timeouts.send

/-- The timeouts pass as they do in another state. -/
def AtPace (d d' : Driver Bench) : Prop := d.engine.AtPace d'.engine

theorem returns_onEngine {m : Run (Engine Bench) α} (hm : Returns d.engine.AtPace m) :
    Returns d.AtPace (onEngine m) :=
  hm.focus (fun _ h => h) fun _ _ _ h => h

theorem returns_tryEngine {x : Attempt (Engine Bench) α} (hx : Returns d.engine.AtPace x.run) :
    Returns d.AtPace (tryEngine x).run :=
  hx.focus (fun _ h => h) fun _ _ _ h => h

theorem returns_record (level : Level) (message : String) :
    Returns d.AtPace (MonadLog.record level message : Run (Driver Bench) Unit) :=
  returns_onEngine (Engine.returns_record level message)

/-- The timeouts are still those of the beginning. -/
theorem returns_timeouts {f : Timeouts → Run (Driver Bench) α}
    (hf : Returns d.AtPace (f d.engine.timeouts)) : Returns d.AtPace (timeouts >>= f) := by
  intro d₁ h₁
  rw [wp_bind, wp_timeouts, h₁.timeouts]
  exact hf d₁ h₁

theorem returns_lift_timeouts {f : Timeouts → Attempt (Driver Bench) α}
    (hf : Returns d.AtPace (f d.engine.timeouts).run) : Returns d.AtPace (lift timeouts >>= f).run := by
  unfold lift
  rw [ExceptT.run_bind_lift]
  exact returns_timeouts hf

/-- A failure that is noted in the log. -/
theorem returns_fail {level : Level} {message : String} {f : Fault} :
    Returns d.AtPace (do MonadLog.record level message; throw f : Attempt (Driver Bench) α).run :=
  .after (returns_record _ _) fun _ => .pure _

/-- **A command returns** if the clock passes its timeout and that of the transmitter. -/
theorem returns_command (pieces : List String) {timeout : UInt32}
    (hsend : d.engine.device.Passes d.engine.timeouts.send) (h : d.engine.device.Passes timeout) :
    Returns d.AtPace (command pieces timeout : Attempt (Driver Bench) Unit).run :=
  returns_tryEngine (Engine.returns_requestOk pieces hsend h)

namespace Patient

theorem returns_transmit (h : d.Patient) (bytes : Bytes) :
    Returns d.AtPace (transmit bytes : Attempt (Driver Bench) Unit).run :=
  returns_tryEngine (Engine.returns_transmit_atPace bytes h.send)

theorem returns_announce (h : d.Patient) (pieces : List String) :
    Returns d.AtPace (announce pieces : Attempt (Driver Bench) Unit).run := by
  unfold announce
  rw [commandLine_eq]
  by_cases hfits : (String.join pieces).utf8ByteSize ≤ commandLimit
  case neg =>
    rw [if_neg hfits]
    exact .pure _
  rw [if_pos hfits]
  show Returns d.AtPace (do tryEngine (Engine.transmitLine (String.join pieces)); _ :
    Attempt (Driver Bench) Unit).run
  rw [Engine.transmitLine_eq hfits]
  refine .attempt (h.returns_transmit _) fun _ => returns_lift_timeouts ?_
  have hprompt : Returns d.AtPace
      (onEngine (Engine.skipPast (utf8 sendPrompt) d.engine.timeouts.prompt)) := by
    refine returns_onEngine (Engine.returns_of_moves fun e₁ h₁ => ?_)
    exact wp_mono (Engine.returns_skipPast (h₁.passes h.prompt)) fun _ _ ⟨c, hc⟩ => ⟨c, [], hc⟩
  refine .after hprompt fun found => ?_
  cases found with
  | true => exact .pure _
  | false => exact returns_fail

theorem returns_confirm (h : d.Patient) :
    Returns d.AtPace (confirm : Attempt (Driver Bench) Unit).run := by
  unfold confirm
  refine returns_lift_timeouts ?_
  refine .after (returns_onEngine (Engine.returns_awaitTag_atPace h.send)) fun scan => ?_
  cases scan with
  | matched t =>
    cases t with
    | sendOk => exact .pure _
    | _ => exact returns_fail
  | found => exact returns_fail
  | timedOut => exact returns_fail

/-- **A send returns** if the clock passes its timeouts. -/
theorem returns_send (h : d.Patient) (s : Outgoing) : Returns d.AtPace s.send.run := by
  have announced {message : String} {pieces : List String} {rest : Attempt (Driver Bench) Unit}
      (hrest : Returns d.AtPace rest.run) :
      Returns d.AtPace (do logDebug message; announce pieces; rest : Attempt (Driver Bench) Unit).run :=
    .after (returns_record _ _) fun _ => .attempt (h.returns_announce _) fun _ => hrest
  have paid (data : Bytes) : Returns d.AtPace (do transmit data; confirm : Attempt _ Unit).run :=
    .attempt (h.returns_transmit data) fun _ => h.returns_confirm
  cases s with
  | bytes link data => exact announced (paid data)
  | datagram link host port data => exact announced (paid data)
  | text link line crlf =>
    refine announced (.attempt (h.returns_transmit _) fun _ => ?_)
    cases crlf with
    | true => exact paid _
    | false => exact h.returns_confirm

theorem exists_send {d : Driver Bench} (h : d.Patient) (s : Outgoing) :
    ∃ r d', s.send.run d = .ok r d' := by
  obtain ⟨r, d', hrun, -⟩ := (h.returns_send s).exists_run (Engine.AtPace.refl d.engine)
  exact ⟨r, d', hrun⟩

end Patient

end Driver

end EspWifi
