import EspWifi.Proofs.At.Lines
import EspWifi.Proofs.Modem.Relative

/-!
# Operations as scripts

An operation of the driver sends one command after the other, and between some of them a payload. It is
described by the list of these steps; what was sent when it returns follows from the list and the result.

* `Step`, `Script`: **what a list of steps sends with each result**.
* `Script.exists_of_tooLong`: an operation that is refused for the length of a command has sent what
  comes before that command, and nothing of it.
* `Script.exists_parts`: what was sent is a beginning of each step, in order.
-/

namespace EspWifi

open Run Engine

/-- A step of an operation. -/
inductive Step where
  /-- A command. If it fails, the operation ends. -/
  | required (text : String)
  /-- A command whose outcome is passed over. -/
  | optional (text : String)
  /-- Payload, and the wait for its confirmation. -/
  | payload (bytes : Bytes)

/-- **The bytes `w` are what a list of steps may send if it ends with the result `r`.** -/
inductive Script : List Step → Except Fault Unit → Bytes → Prop
  | done : Script [] (.ok ()) []
  | passed {text : String} {steps : List Step} {r r' : Except Fault Unit} {w w' : Bytes}
      (sent : Issued text r w) (rest : Script steps r' w') :
      Script (.optional text :: steps) r' (w ++ w')
  | answered {text : String} {steps : List Step} {r : Except Fault Unit} {w w' : Bytes}
      (sent : Issued text (.ok () : Except Fault Unit) w) (rest : Script steps r w') :
      Script (.required text :: steps) r (w ++ w')
  | failed {text : String} {steps : List Step} {f : Fault} {w : Bytes}
      (sent : Issued text (.error f : Except Fault Unit) w) :
      Script (.required text :: steps) (.error f) w
  | confirmed {bytes : Bytes} {steps : List Step} {r : Except Fault Unit} {w w' : Bytes}
      (sent : Carried bytes (.ok () : Except Fault Unit) w) (rest : Script steps r w') :
      Script (.payload bytes :: steps) r (w ++ w')
  | unconfirmed {bytes : Bytes} {steps : List Step} {f : Fault} {w : Bytes}
      (sent : Carried bytes (.error f : Except Fault Unit) w) :
      Script (.payload bytes :: steps) (.error f) w

/-- **An operation that is refused for the length of a command** has carried out the steps before that
command and has sent nothing else. -/
theorem Script.exists_of_tooLong {steps : List Step} {w : Bytes}
    (h : Script steps (.error .commandTooLong) w) :
    ∃ before text after, steps = before ++ .required text :: after ∧
      commandLimit < text.utf8ByteSize ∧ Script before (.ok ()) w := by
  generalize hr : (.error .commandTooLong : Except Fault Unit) = r at h
  induction h with
  | done => cases hr
  | @passed text steps _ _ _ _ sent _ ih =>
    obtain ⟨before, long, after, rfl, hlong, hbefore⟩ := ih hr
    exact ⟨.optional text :: before, long, after, rfl, hlong, .passed sent hbefore⟩
  | @answered text steps _ _ _ sent _ ih =>
    obtain ⟨before, long, after, rfl, hlong, hbefore⟩ := ih hr
    exact ⟨.required text :: before, long, after, rfl, hlong, .answered sent hbefore⟩
  | @failed text steps f w sent =>
    cases hr
    obtain ⟨hlong, rfl⟩ := sent.of_tooLong
    exact ⟨[], text, steps, rfl, hlong, .done⟩
  | @confirmed bytes steps _ _ _ sent _ ih =>
    obtain ⟨before, long, after, rfl, hlong, hbefore⟩ := ih hr
    exact ⟨.payload bytes :: before, long, after, rfl, hlong, .confirmed sent hbefore⟩
  | unconfirmed sent =>
    cases hr
    exact absurd rfl sent.notRefused

namespace Script

variable {text : String} {steps : List Step} {w : Bytes}

/-- **Nothing is sent of an operation with one needed command** if it is refused. -/
theorem eq_nil_of_tooLong (h : Script (.required text :: steps) (.error .commandTooLong) w)
    (hsteps : ∀ text, .required text ∉ steps) : w = [] := by
  obtain ⟨before, long, after, heq, -, hbefore⟩ := h.exists_of_tooLong
  cases before with
  | nil =>
    cases hbefore
    rfl
  | cons _ before =>
    have htail : steps = before ++ .required long :: after := (List.cons.inj heq).2
    exact absurd (htail ▸ List.mem_append_right _ List.mem_cons_self) (hsteps long)

/-- A command that is not too long has been answered if an operation is refused. -/
theorem exists_of_fits (h : Script (.required text :: steps) (.error .commandTooLong) w)
    (hfits : text.utf8ByteSize ≤ commandLimit) :
    ∃ w', w = utf8 (text ++ lineEnd) ++ w' ∧ Script steps (.error .commandTooLong) w' := by
  cases h with
  | @answered _ _ _ w w' sent rest => exact ⟨w', by rw [sent.eq_of_ok], rest⟩
  | failed sent => exact absurd sent.of_tooLong.1 (Nat.not_lt.2 hfits)

end Script

variable {σ α : Type} [Device σ] {L : Ledger σ}

namespace Driver

/-! ### Programs that send nothing -/

theorem quiet_onEngine {m : Run (Engine σ) α} (h : Quiet L m) : Quiet L (onEngine m) :=
  h.focus enginePart

theorem sends_tryEngine {x : Attempt (Engine σ) α} {P : Except Fault α → Bytes → Prop}
    (h : Attempt.Sends L x P) : Attempt.Sends L (tryEngine x) P :=
  h.focus enginePart

theorem quiet_record (level : Level) (message : String) :
    Quiet L (MonadLog.record level message : Run (Driver σ) Unit) :=
  quiet_onEngine (Engine.quiet_record level message)

/-- A note in the log sends nothing. -/
theorem sends_logged {level : Level} {message : String} {x : Attempt (Driver σ) α}
    {P : Except Fault α → Bytes → Prop} (h : Attempt.Sends L x P) :
    Attempt.Sends L (do MonadLog.record level message; x) P :=
  .after (quiet_record level message) fun _ => h

theorem quiet_timeouts : Quiet L (timeouts : Run (Driver σ) Timeouts) :=
  Run.Sends.get_bind fun _ => .pure rfl

theorem quiet_delay (ms : UInt32) : Quiet L (delay ms : Run (Driver σ) Unit) :=
  quiet_onEngine (quiet_of_onlyReads fun _ => L.wp_still (L.delay · ms) fun _ _ h _ => ⟨[], h⟩)

/-! ### Steps -/

theorem sends_command (pieces : List String) (timeout : UInt32) :
    Attempt.Sends L (command pieces timeout : Attempt (Driver σ) Unit)
      (Issued (String.join pieces)) :=
  sends_tryEngine (sends_requestOk pieces timeout)

theorem sends_setUp (line : String) :
    Run.Sends L (setUp line : Run (Driver σ) Unit) fun _ w =>
      ∃ r : Except Fault Unit, Issued line r w := by
  have hcommand (timeout : UInt32) :
      Run.Sends L (command [line] timeout : Attempt (Driver σ) Unit).run (Issued line) := by
    have h := sends_command (L := L) [line] timeout
    rwa [String.join_cons, String.join_nil, String.append_empty] at h
  unfold setUp
  refine quiet_timeouts.before fun timeouts => .bind (hcommand _) fun r w hw => ?_
  cases r with
  | ok _ => exact .pure ⟨.ok (), by rwa [List.append_nil]⟩
  | error f =>
    refine (quiet_record (L := L) _ _).mono ?_
    rintro _ _ rfl
    exact ⟨.error f, by rwa [List.append_nil]⟩

/-- An announcement is a command. -/
theorem sends_announce (pieces : List String) :
    Attempt.Sends L (announce pieces : Attempt (Driver σ) Unit) (Issued (String.join pieces)) := by
  unfold announce
  rw [commandLine_eq]
  by_cases hfits : (String.join pieces).utf8ByteSize ≤ commandLimit
  · rw [if_pos hfits]
    show Attempt.Sends L (do tryEngine (transmitLine (String.join pieces)); _) _
    refine .bind (sends_tryEngine (sends_transmitLine _)) (fun _ w hw => ?_) fun f w hw => hw.of_error
    refine .after quiet_timeouts fun _ => .after (quiet_onEngine (quiet_skipPast _ _)) fun seen => ?_
    split
    · exact .pure (by rwa [List.append_nil])
    · exact sends_logged (.throw (by rw [List.append_nil]; exact hw.of_ok (by simp)))
  · rw [if_neg hfits]
    exact .throw (.refused (Nat.lt_of_not_le hfits) rfl rfl)

/-- A payload, and the wait for its confirmation. -/
theorem sends_payload (bytes : Bytes) :
    Attempt.Sends L (do transmit bytes; confirm : Attempt (Driver σ) Unit) (Carried bytes) := by
  refine .bind (sends_tryEngine (sends_transmit bytes)) (fun _ w hw => ?_) fun f w hw => hw.of_error
  refine .after quiet_timeouts fun _ => .after (quiet_onEngine (quiet_awaitTag _ _ _)) fun scan => ?_
  have failed {message : String} {f : Fault} (hf : f ≠ .commandTooLong) :
      Attempt.Sends L (do logError message; throw f : Attempt (Driver σ) Unit)
        fun r w' => Carried bytes r (w ++ w') :=
    sends_logged (.throw (by rw [List.append_nil]; exact hw.of_ok (by simpa using hf)))
  cases scan with
  | found => exact failed (by simp)
  | timedOut => exact failed (by simp)
  | matched tag =>
    cases tag with
    | sendOk => exact .pure (by rwa [List.append_nil])
    | _ => exact failed (by simp)

end Driver

namespace Script

open Driver

variable {steps : List Step} {x rest : Attempt (Driver σ) Unit}

/-- A command that the rest of the operation depends on. -/
theorem sends_required {text : String} (h : Attempt.Sends L x (Issued text))
    (hrest : Attempt.Sends L rest (Script steps)) :
    Attempt.Sends L (do x; rest) (Script (.required text :: steps)) :=
  .bind h (fun _ _ hw => hrest.mono fun _ _ => .answered hw) fun _ _ hw => .failed hw

theorem sends_optional (text : String) (hrest : Attempt.Sends L rest (Script steps)) :
    Attempt.Sends L (do lift (setUp text); rest) (Script (.optional text :: steps)) := by
  unfold Attempt.Sends lift
  rw [ExceptT.run_bind_lift]
  refine .bind (sends_setUp text) ?_
  rintro _ w ⟨r, hw⟩
  exact Run.Sends.mono hrest fun _ _ => .passed hw

/-- A payload ends an operation. -/
theorem of_carried {bytes : Bytes} {r : Except Fault Unit} {w : Bytes} (h : Carried bytes r w) :
    Script [.payload bytes] r w := by
  cases r with
  | error f => exact .unconfirmed h
  | ok _ =>
    have := Script.confirmed h .done
    rwa [List.append_nil] at this

/-- A single command. -/
theorem of_issued {text : String} {r : Except Fault Unit} {w : Bytes} (h : Issued text r w) :
    Script [.required text] r w := by
  cases r with
  | error f => exact .failed h
  | ok _ =>
    have := Script.answered h .done
    rwa [List.append_nil] at this

end Script

/-! ### What was sent of a script -/

/-- The bytes of a step. -/
def Step.bytes : Step → Bytes
  | required text | optional text => utf8 (text ++ lineEnd)
  | payload bytes => bytes

/-- Whether an operation ends if the step fails. -/
def Step.IsNeeded : Step → Prop
  | required _ | payload _ => True
  | optional _ => False

namespace Script

variable {steps : List Step} {r : Except Fault Unit} {w : Bytes}

/-- **What was sent is a beginning of each step, in order**, up to the one that failed. If none failed, all
of the needed steps were sent in full. -/
theorem exists_parts (h : Script steps r w) :
    ∃ parts : List Bytes, w = parts.flatten ∧
      List.Forall₂ (fun part step => part <+: step.bytes) parts (steps.take parts.length) ∧
      (r = .ok () → List.Forall₂ (fun part step => step.IsNeeded → part = step.bytes) parts steps) := by
  induction h with
  | done => exact ⟨[], rfl, .nil, fun _ => .nil⟩
  | @passed text steps r r' w w' sent _ ih =>
    obtain ⟨parts, rfl, hparts, hall⟩ := ih
    exact ⟨w :: parts, rfl, .cons sent.isPrefix hparts, fun h => .cons nofun (hall h)⟩
  | @answered text steps r w w' sent _ ih =>
    obtain ⟨parts, rfl, hparts, hall⟩ := ih
    exact ⟨w :: parts, rfl, .cons sent.isPrefix hparts, fun h => .cons (fun _ => sent.eq_of_ok) (hall h)⟩
  | @failed text steps f w sent =>
    exact ⟨[w], by simp, .cons sent.isPrefix .nil, nofun⟩
  | @confirmed bytes steps r w w' sent _ ih =>
    obtain ⟨parts, rfl, hparts, hall⟩ := ih
    exact ⟨w :: parts, rfl, .cons sent.part hparts, fun h => .cons (fun _ => sent.eq_of_ok) (hall h)⟩
  | @unconfirmed bytes steps f w sent =>
    exact ⟨[w], by simp, .cons sent.part .nil, nofun⟩

end Script

end EspWifi
