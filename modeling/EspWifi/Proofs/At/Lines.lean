import EspWifi.Proofs.At.Commands
import EspWifi.Proofs.At.Relative
import EspWifi.Proofs.Link.Sends

/-!
# Command lines on the link

A command goes out as one line: its text and the line end. What of that line was sent can be told from
the result of the command.

* `commandLine_eq`: **a command has a line exactly if its text is not too long**, however it is cut into
  pieces.
* `Engine.Carried`, `Engine.Issued`: what is sent of some bytes and of a command with each result.
* `Engine.sends_requestOk`, `Engine.sends_transmitLine`: the commands.
-/

namespace EspWifi

open Run

/-! ### Lines in pieces -/

theorem appendWithin_join {capacity : Nat} {line : String} {pieces : List String}
    (h : line.utf8ByteSize ≤ capacity) :
    appendWithin capacity line pieces =
      if (line ++ String.join pieces).utf8ByteSize ≤ capacity then
        some (line ++ String.join pieces)
      else none := by
  induction pieces generalizing line with
  | nil =>
    rw [String.join_nil, String.append_empty, if_pos h]
    rfl
  | cons piece pieces ih =>
    rw [String.join_cons, ← String.append_assoc, appendWithin]
    by_cases hpiece : line.utf8ByteSize + piece.utf8ByteSize ≤ capacity
    · rw [if_pos hpiece]
      exact ih (by rwa [String.utf8ByteSize_append])
    · rw [if_neg hpiece, if_neg]
      intro hall
      rw [String.utf8ByteSize_append, String.utf8ByteSize_append] at hall
      omega

/-- **A command has a line exactly if its text is not too long**, however it is cut into pieces. -/
theorem commandLine_eq (pieces : List String) :
    commandLine pieces =
      if (String.join pieces).utf8ByteSize ≤ commandLimit then .ok (String.join pieces)
      else .error .commandTooLong := by
  have hcapacity : lineCapacity = commandLimit + 2 := rfl
  unfold commandLine
  rw [appendWithin_join (Nat.zero_le _), String.empty_append]
  by_cases hroom : (String.join pieces).utf8ByteSize ≤ lineCapacity
  · rw [if_pos hroom]
  · rw [if_neg hroom, if_neg (by omega)]

/-- There is always room for the line end. -/
theorem endLine_eq {line : String} (h : line.utf8ByteSize ≤ commandLimit) :
    endLine line = .ok (line ++ lineEnd) := by
  have hcapacity : lineCapacity = commandLimit + 2 := rfl
  have hend : lineEnd.utf8ByteSize = 2 := rfl
  have hjoin : String.join [lineEnd] = lineEnd := rfl
  unfold endLine
  rw [appendWithin_join (by omega), hjoin, if_pos]
  rw [String.utf8ByteSize_append]
  omega

/-- The bytes of a command line. -/
def lineBytes (text : String) : Bytes := utf8 (text ++ lineEnd)

theorem join_singleton (text : String) : String.join [text] = text := by
  rw [String.join_cons, String.join_nil, String.append_empty]

theorem length_utf8 (text : String) : (utf8 text).length = text.utf8ByteSize := rfl

theorem length_lineBytes (text : String) : (lineBytes text).length = text.utf8ByteSize + 2 := by
  rw [lineBytes, length_utf8, String.utf8ByteSize_append]
  rfl

variable {σ α β : Type} [Device σ] {L : Ledger σ}

namespace Engine

/-- A line that is not too long goes out as it is, with its end. -/
theorem transmitLine_eq {line : String} (h : line.utf8ByteSize ≤ commandLimit) :
    (transmitLine line : Attempt (Engine σ) Unit) = transmit (lineBytes line) := by
  unfold transmitLine
  rw [commandLine_eq, join_singleton, if_pos h]
  show (do transmit (utf8 (← liftResult (endLine line))) : Attempt (Engine σ) Unit) = _
  rw [endLine_eq h]
  rfl

/-! ### Programs that send nothing -/

theorem quiet_of_onlyReads {m : Run (Engine σ) α} (h : OnlyReads L m) : Quiet L m := by
  intro e
  refine wp_mono (h e) ?_
  rintro a e' ⟨c, hc⟩
  exact ⟨[], ⟨c, hc.device⟩, rfl⟩

theorem quiet_record (level : Level) (message : String) :
    Quiet L (MonadLog.record level message : Run (Engine σ) Unit) :=
  quiet_of_onlyReads fun _ => L.wp_record fun _ h _ => ⟨[], h⟩

theorem quiet_awaitTag (timeout : UInt32) (tag : Option Bytes) (known : Bool) :
    Quiet L (awaitTag timeout tag known : Run (Engine σ) Scan) :=
  quiet_of_onlyReads fun _ =>
    L.wp_awaitTag (fun c _ _ h _ _ => ⟨c, h⟩) fun c _ h _ _ => ⟨c, h⟩

theorem quiet_skipPast (tag : Bytes) (timeout : UInt32) :
    Quiet L (skipPast tag timeout : Run (Engine σ) Bool) :=
  (quiet_awaitTag _ _ _).bind fun _ => .pure _

/-- What is thrown away was received. -/
theorem quiet_drain (warn : Bool) : Quiet L (drain warn : Run (Engine σ) Nat) := by
  intro e
  exact L.wp_drain fun z _ _ h _ _ => ⟨[], ⟨z, h⟩, rfl⟩

/-! ### Commands -/

/-- **What is sent of some bytes with each result**: a beginning of them, and all of them unless the time
ran out. -/
structure Carried (bytes : Bytes) (r : Except Fault α) (w : Bytes) : Prop where
  notRefused : r ≠ .error .commandTooLong
  part : w <+: bytes
  whole : r ≠ .error .timeout → w = bytes

namespace Carried

variable {bytes w : Bytes}

/-- Where the bytes were carried with a value, all of them were sent, whatever is then made of it. -/
theorem of_ok {a : α} {r : Except Fault β} (h : Carried bytes (.ok a) w)
    (hr : r ≠ .error .commandTooLong) : Carried bytes r w :=
  ⟨hr, h.part, fun _ => h.whole (by simp)⟩

/-- With the same fault as much was sent. -/
theorem of_error {f : Fault} (h : Carried bytes (.error f : Except Fault α) w) :
    Carried bytes (.error f : Except Fault β) w :=
  ⟨by simpa using h.notRefused, h.part, fun hf => h.whole (by simpa using hf)⟩

theorem eq_of_ok {a : α} (h : Carried bytes (.ok a) w) : w = bytes := h.whole (by simp)

end Carried

theorem sends_transmit (bytes : Bytes) :
    Attempt.Sends L (transmit bytes : Attempt (Engine σ) Unit) (Carried bytes) := by
  intro e
  refine Attempt.wp_run.2 ?_
  refine L.wp_transmit (fun _ h => ?_) fun w _ h hw => ?_
  · exact ⟨bytes, ⟨[], h.device⟩, by simp, List.prefix_refl _, fun _ => rfl⟩
  · exact ⟨w, ⟨[], h.device⟩, by simp, hw, fun h => absurd rfl h⟩

/-- **What is sent of a command with each of its results.** If the command is too long, nothing. If it is
not, a beginning of its line, and all of the line unless the time ran out. -/
inductive Issued (text : String) (r : Except Fault α) (w : Bytes) : Prop
  | refused (long : commandLimit < text.utf8ByteSize) (result : r = .error .commandTooLong)
      (nothing : w = [])
  | sent (fits : text.utf8ByteSize ≤ commandLimit) (carried : Carried (utf8 (text ++ lineEnd)) r w)

namespace Issued

variable {text : String} {w : Bytes}

/-- A command with a value was sent, whatever is then made of that value. -/
theorem of_ok {a : α} {r : Except Fault β} (h : Issued text (.ok a) w)
    (hr : r ≠ .error .commandTooLong) : Issued text r w := by
  cases h with
  | refused _ result _ => cases result
  | sent fits carried => exact .sent fits (carried.of_ok hr)

/-- Of a command that fails in the same way as much was sent. -/
theorem of_error {f : Fault} (h : Issued text (.error f : Except Fault α) w) :
    Issued text (.error f : Except Fault β) w := by
  cases h with
  | refused long result nothing =>
    cases result
    exact .refused long rfl nothing
  | sent fits carried => exact .sent fits carried.of_error

/-- **The whole line of a command that has a value was sent.** -/
theorem eq_of_ok {a : α} (h : Issued text (.ok a) w) : w = utf8 (text ++ lineEnd) := by
  cases h with
  | refused _ result _ => cases result
  | sent _ carried => exact carried.eq_of_ok

/-- Only a command that is too long is refused for its length, and nothing is sent of it. -/
theorem of_tooLong (h : Issued text (.error .commandTooLong : Except Fault α) w) :
    commandLimit < text.utf8ByteSize ∧ w = [] := by
  cases h with
  | refused long _ nothing => exact ⟨long, nothing⟩
  | sent _ carried => exact absurd rfl carried.notRefused

theorem isPrefix {r : Except Fault α} (h : Issued text r w) : w <+: utf8 (text ++ lineEnd) := by
  cases h with
  | refused _ _ nothing =>
    rw [nothing]
    exact List.nil_prefix
  | sent _ carried => exact carried.part

end Issued

/-- A line goes out with its end. -/
theorem sends_transmit_line {line : String} (h : line.utf8ByteSize ≤ commandLimit) :
    Attempt.Sends L (do transmit (utf8 (← liftResult (endLine line))) : Attempt (Engine σ) Unit)
      (Carried (utf8 (line ++ lineEnd))) := by
  rw [endLine_eq h]
  exact sends_transmit _

/-- What is not too long is sent, the rest is refused. -/
theorem sends_commandLine {pieces : List String} {send : String → Attempt (Engine σ) α}
    (h : ∀ line, line.utf8ByteSize ≤ commandLimit → Attempt.Sends L (send line) (Issued line)) :
    Attempt.Sends L (do send (← liftResult (commandLine pieces))) (Issued (String.join pieces)) := by
  rw [commandLine_eq]
  by_cases hfits : (String.join pieces).utf8ByteSize ≤ commandLimit
  · rw [if_pos hfits]
    exact h _ hfits
  · rw [if_neg hfits]
    exact .throw (.refused (Nat.lt_of_not_le hfits) rfl rfl)

theorem sends_transmitLine (line : String) :
    Attempt.Sends L (transmitLine line : Attempt (Engine σ) Unit) (Issued line) := by
  have h : Attempt.Sends L (transmitLine line : Attempt (Engine σ) Unit)
      (Issued (String.join [line])) :=
    sends_commandLine fun _ hfits => (sends_transmit_line hfits).mono fun _ _ => .sent hfits
  rwa [String.join_cons, String.join_nil, String.append_empty] at h

theorem sends_request (pieces : List String) (timeout : UInt32) :
    Attempt.Sends L (request pieces timeout : Attempt (Engine σ) Tag)
      (Issued (String.join pieces)) := by
  refine sends_commandLine fun line hfits => ?_
  have hissue : Attempt.Sends L (issue line : Attempt (Engine σ) Unit)
      (Carried (utf8 (line ++ lineEnd))) :=
    .after (quiet_drain true) fun _ => .after (quiet_record _ _) fun _ => sends_transmit_line hfits
  refine .bind hissue (fun _ w hw => ?_) fun f w hw => .sent hfits hw.of_error
  have hsent := Issued.sent hfits hw
  refine .after (quiet_awaitTag _ _ _) fun scan => .after (quiet_record _ _) fun _ => ?_
  cases scan with
  | matched t => exact .pure (by rw [List.append_nil]; exact hsent.of_ok (by simp))
  | found => exact .throw (by rw [List.append_nil]; exact hsent.of_ok (by simp))
  | timedOut => exact .throw (by rw [List.append_nil]; exact hsent.of_ok (by simp))

/-- **A command that has to be answered with `ok`.** -/
theorem sends_requestOk (pieces : List String) (timeout : UInt32) :
    Attempt.Sends L (requestOk pieces timeout : Attempt (Engine σ) Unit)
      (Issued (String.join pieces)) := by
  refine .bind (sends_request pieces timeout) (fun t w hw => ?_) fun f w hw => hw.of_error
  cases t with
  | ok => exact .pure (by rw [List.append_nil]; exact hw.of_ok (by simp))
  | _ => exact .throw (by rw [List.append_nil]; exact hw.of_ok (by simp))

end Engine

end EspWifi
