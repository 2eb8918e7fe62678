import EspWifi.Proofs.Modem.Patience
import EspWifi.Proofs.Modem.Script
import EspWifi.Proofs.Net.Opening

/-!
# Sends of a client

A client that fails to send closes its link, whatever the failure was and whatever the module says to the
close. One that has sent its message has changed nothing.

* `LinkTable.Frees`: one link is free, and nothing else has changed.
* `Client.Message`: what a client can be asked to send; `Client.Attempted`: what the attempt comes to.
* `Wifi.Patient`: the clock passes the waits of a client that sends; `Client.returns_message`: then a send
  returns.
* `Client.send_or_close`: **a message is sent, or its link is given back.**
-/

namespace EspWifi

open Run Engine

namespace LinkTable

variable {t t' : LinkTable} {link other : UInt8}

/-- **In `t'` the link is free and has no port**, and all other slots are as in `t`. -/
structure Frees (t : LinkTable) (link : UInt8) (t' : LinkTable) : Prop where
  freed : t'.slot? link = some {}
  others : ∀ other, other ≠ link → t'.slot? other = t.slot? other

/-- A release is of one slot. -/
theorem slot?_release_ne (h : other ≠ link) : (t.release link).slot? other = t.slot? other := by
  unfold release
  rw [slot?_getD_update?, if_neg h]

theorem frees_release (h : link.toNat < linkCount) : t.Frees link (t.release link) :=
  ⟨slot?_release h, fun _ => slot?_release_ne⟩

end LinkTable

variable {σ : Type} [Device σ] {L : Ledger σ}

namespace Client

/-- **What a client can be asked to send.** -/
inductive Message where
  | bytes (data : Bytes)
  | text (line : String) (crlf : Bool)

namespace Message

/-- Ask a client to send it. -/
def send (c : Client) : Message → Run (Wifi σ) (Except Fault Nat × Client)
  | bytes data => c.send data
  | text line crlf => c.sendText line crlf

/-- What the driver is asked for then. -/
def outgoing (link : UInt8) : Message → Outgoing
  | bytes data => .bytes link data
  | text line crlf => .text link line crlf

/-- The bytes that are to reach the other side. -/
def payload (m : Message) : Bytes := (m.outgoing 0).payload

/-- What goes out for the message. A message without bytes is not announced. -/
def telegram (link : UInt8) (m : Message) : Bytes :=
  if m.payload = [] then [] else (m.outgoing link).line ++ m.payload

theorem payload_outgoing (link : UInt8) (m : Message) : (m.outgoing link).payload = m.payload := by
  cases m <;> rfl

end Message

variable {c : Client} {link : UInt8}

/-- **Only a message with bytes is sent**, and it is counted in bytes. -/
theorem send_eq (hc : c.link = some link) (m : Message) :
    (m.send c : Run (Wifi σ) _) =
      if m.payload = [] then pure (.ok 0, c)
      else c.sendOrClose link (m.outgoing link).send m.payload.length := by
  have hend : utf8 lineEnd ≠ [] := by decide
  cases m with
  | bytes data =>
    show c.send data = if data = [] then _ else c.sendOrClose link (Driver.sendBytes link data) data.length
    simp only [Client.send, hc, List.isEmpty_iff]
  | text line crlf =>
    have hline : utf8 line = [] ↔ line.isEmpty = true := by
      rw [← List.length_eq_zero_iff, length_utf8, String.isEmpty_iff, String.utf8ByteSize_eq_zero_iff]
    have hempty : (Message.text line crlf).payload = [] ↔ line.isEmpty = true ∧ (!crlf) = true := by
      show utf8 line ++ (if crlf then utf8 lineEnd else []) = [] ↔ _
      rw [List.append_eq_nil_iff, hline]
      cases crlf <;> simp [hend]
    have hlength : (Message.text line crlf).payload.length =
        line.utf8ByteSize + if crlf then lineEnd.utf8ByteSize else 0 := by
      show (utf8 line ++ if crlf then utf8 lineEnd else []).length = _
      rw [List.length_append, length_utf8]
      cases crlf <;> rfl
    show c.sendText line crlf = _
    simp only [sendText, hc, hempty, hlength]
    rfl

end Client

/-! ### What is sent -/

/-- **What is sent of a payload**: a beginning of what was to go out, and all of it if the send succeeds. -/
theorem Outgoing.sends_send (s : Outgoing) :
    Attempt.Sends L (s.send : Attempt (Driver σ) Unit) fun r b =>
      b <+: s.line ++ s.payload ∧ (r = .ok () → b = s.line ++ s.payload) := by
  intro d
  refine wp_mono (Driver.wp_ends L s d) fun r d' hends => ?_
  have sent {c b : Bytes} (h : d.Moves L d' c b) (hpart : b <+: s.line ++ s.payload)
      (hr : r = .ok () → b = s.line ++ s.payload) :
      ∃ b, L.Sent d d' b ∧ b <+: s.line ++ s.payload ∧ (r = .ok () → b = s.line ++ s.payload) :=
    ⟨b, ⟨c, h.engine.device⟩, hpart, hr⟩
  have answered {t : Tag} (h : s.Answered L d t d') :
      ∃ b, L.Sent d d' b ∧ b <+: s.line ++ s.payload ∧ (r = .ok () → b = s.line ++ s.payload) := by
    obtain ⟨d₁, c, c', hsent, hheard, -⟩ := h
    have hmoves := hsent.trans hheard
    rw [List.append_nil] at hmoves
    exact sent hmoves (List.prefix_refl _) fun _ => rfl
  match r, hends.accounts with
  | .ok (), h => exact answered h
  | .error .commandTooLong, h => exact sent h List.nil_prefix nofun
  | .error .prompt, ⟨c, h⟩ => exact sent h (List.prefix_append _ _) nofun
  | .error (.rejected t), ⟨_, h⟩ => exact answered h
  | .error .timeout, ⟨c, b, h, hpart⟩ => exact sent h hpart nofun

/-- The command that closes a link. -/
def closeText (link : UInt8) : String := "AT+CIPCLOSE=" ++ toString link

namespace Wifi

theorem quiet_record (level : Level) (message : String) :
    Quiet L (MonadLog.record level message : Run (Wifi σ) Unit) :=
  (Driver.quiet_record level message).focus driverPart

theorem quiet_release (link : UInt8) : Quiet L (release link : Run (Wifi σ) Unit) :=
  fun _ => ⟨[], ⟨[], L.refl _⟩, rfl⟩

/-- **The module is told to close a link**, whatever it says to that. -/
theorem sends_closeLink (link : UInt8) :
    Run.Sends L (closeLink link : Run (Wifi σ) Unit) fun _ b =>
      ∃ r : Except Fault Unit, Issued (closeText link) r b := by
  have hclose : Attempt.Sends L (Driver.closeLink link : Attempt (Driver σ) Unit)
      (Issued (closeText link)) := by
    refine Driver.sends_logged (.after Driver.quiet_timeouts fun _ => ?_)
    have hcommand (timeout : UInt32) := Driver.sends_command (L := L) ["AT+CIPCLOSE=", toString link] timeout
    simp only [String.join_cons, String.join_nil, String.append_empty] at hcommand
    exact hcommand _
  have released : Quiet L (release link : Run (Wifi σ) Unit) := quiet_release link
  unfold closeLink
  refine .bind (Attempt.Sends.focus driverPart hclose) fun r b hb => ?_
  have rest {m : Run (Wifi σ) Unit} (hm : Quiet L m) :
      Run.Sends L (do m; release link) fun _ b' => ∃ r : Except Fault Unit,
        Issued (closeText link) r (b ++ b') := by
    refine (hm.bind fun _ => released).mono ?_
    rintro _ _ rfl
    exact ⟨r, by rwa [List.append_nil]⟩
  cases r with
  | ok _ => exact rest (.pure ())
  | error f => exact rest (quiet_record _ _)

end Wifi

namespace Client

variable {c : Client} {link : UInt8}

/-- What is sent with each result of a send: what was to go out, or a beginning of it and the command that
closes the link. -/
def Says (link : UInt8) (telegram : Bytes) : Except Fault Nat → Bytes → Prop
  | .ok _, b => b = telegram
  | .error _, b => ∃ part close : Bytes, ∃ r : Except Fault Unit,
    b = part ++ close ∧ part <+: telegram ∧ Issued (closeText link) r close

theorem sends_sendOrClose (hc : c.link = some link) (s : Outgoing) (n : Nat) :
    Run.Sends L (c.sendOrClose link s.send n : Run (Wifi σ) _) fun r =>
      Says link (s.line ++ s.payload) r.1 := by
  unfold sendOrClose
  refine .bind (Attempt.Sends.focus Wifi.driverPart s.sends_send) ?_
  rintro (f | _) b ⟨hpart, hall⟩
  · refine Quiet.before (Wifi.quiet_record (L := L) _ _) fun _ => ?_
    refine Quiet.before ((Driver.quiet_delay (L := L) _).focus Wifi.driverPart) fun _ => ?_
    unfold close
    rw [hc]
    refine .bind (P := fun _ b' => ∃ r : Except Fault Unit, Issued (closeText link) r b') ?_ ?_
    · refine .bind (P := fun _ b' => b' = []) (Wifi.quiet_record _ _) ?_
      rintro _ _ rfl
      refine .bind (Wifi.sends_closeLink link) fun _ b' hb' => .pure ?_
      simpa using hb'
    · rintro c' b' ⟨r, hr⟩
      refine .pure ⟨b, b', r, by simp, hpart, hr⟩
  · refine .pure ?_
    rw [List.append_nil, hall rfl]
    rfl

end Client

/-! ### Sends return -/

namespace Wifi

/-- **The clock passes the waits of a client that sends**: those of the send, the pause after one that has
failed, and the timeout of a close. -/
structure Patient (w : Wifi Bench) : Prop where
  send : w.driver.Patient
  pause : w.device.Passes Client.writeFailDelay
  close : w.device.Passes w.driver.engine.timeouts.close

/-- The timeouts pass as they do in another state. -/
def AtPace (w w' : Wifi Bench) : Prop := w.driver.AtPace w'.driver

variable {α : Type} {w : Wifi Bench}

theorem returns_onDriver {m : Run (Driver Bench) α} (hm : Returns w.driver.AtPace m) :
    Returns w.AtPace (onDriver m) :=
  hm.focus (fun _ h => h) fun _ _ _ h => h

theorem returns_tryDriver {x : Attempt (Driver Bench) α} (hx : Returns w.driver.AtPace x.run) :
    Returns w.AtPace (tryDriver x).run :=
  hx.focus (fun _ h => h) fun _ _ _ h => h

theorem returns_record (level : Level) (message : String) :
    Returns w.AtPace (MonadLog.record level message : Run (Wifi Bench) Unit) :=
  returns_onDriver (Driver.returns_record level message)

theorem Patient.returns_closeLink (h : w.Patient) (link : UInt8) :
    Returns w.AtPace (closeLink link : Run (Wifi Bench) Unit) := by
  have hclose : Returns w.driver.AtPace (Driver.closeLink link : Attempt (Driver Bench) Unit).run :=
    .after (Driver.returns_record _ _) fun _ =>
      Driver.returns_lift_timeouts (Driver.returns_command _ h.send.send h.close)
  have released : Returns w.AtPace (release link : Run (Wifi Bench) Unit) := .modify fun _ h => h
  unfold closeLink
  refine .bind (returns_tryDriver hclose) fun r => ?_
  cases r with
  | ok _ => exact .bind (.pure ()) fun _ => released
  | error f => exact .bind (returns_record _ _) fun _ => released

end Wifi

namespace Client

variable {c : Client} {link : UInt8} {w : Wifi Bench}

theorem returns_sendOrClose (h : w.Patient) (s : Outgoing) (n : Nat) :
    Returns w.AtPace (c.sendOrClose link s.send n : Run (Wifi Bench) _) := by
  unfold sendOrClose
  refine .bind (Wifi.returns_tryDriver (h.send.returns_send s)) fun r => ?_
  cases r with
  | ok _ => exact .pure _
  | error f =>
    have pauses : Returns w.AtPace (Wifi.delay writeFailDelay : Run (Wifi Bench) Unit) :=
      Wifi.returns_onDriver (Driver.returns_onEngine (Engine.returns_delay h.pause))
    refine .bind (Wifi.returns_record _ _) fun _ => .bind pauses fun _ => .bind ?_ fun _ => .pure _
    unfold close
    cases c.link with
    | none => exact .pure _
    | some held =>
      exact .bind (Wifi.returns_record _ _) fun _ => .bind (h.returns_closeLink held) fun _ => .pure _

/-- **A message is sent, or given up, in finite time.** -/
theorem returns_message (h : w.Patient) (hc : c.link = some link) (m : Message) :
    Returns w.AtPace (m.send c : Run (Wifi Bench) _) := by
  rw [send_eq hc]
  split
  · exact .pure _
  · exact returns_sendOrClose h _ _

/-! ### Sent, or closed -/

/-- **What an attempt to send a message comes to.** It was sent, and the handle and the table are as
before. Or the handle has lost its link, and the link is free; then a beginning of the message was sent, and
the command that closes the link. -/
inductive Attempted {σ : Type} [Device σ] (L : Ledger σ) (c : Client) (link : UInt8) (m : Message)
    (w : Wifi σ) : Except Fault Nat × Client → Wifi σ → Prop
  | sent {w' : Wifi σ} (table : w'.links = w.links) (said : L.Sent w w' (m.telegram link)) :
    Attempted L c link m w (.ok m.payload.length, c) w'
  | closed {f : Fault} {part close : Bytes} {r : Except Fault Unit} {w' : Wifi σ}
    (frees : w.links.Frees link w'.links) (part_of : part <+: m.telegram link)
    (closing : Issued (closeText link) r close) (said : L.Sent w w' (part ++ close)) :
    Attempted L c link m w (.error f, ⟨none⟩) w'

theorem wp_message {σ : Type} [Device σ] (L : Ledger σ) (hc : c.link = some link)
    (hlink : link.toNat < linkCount) (m : Message) (w : Wifi σ) :
    wp True (m.send c) (Attempted L c link m w) w := by
  rw [send_eq hc]
  by_cases hempty : m.payload = []
  · have hnothing : m.telegram link = [] := if_pos hempty
    have hlength : m.payload.length = 0 := List.length_eq_zero_iff.2 hempty
    have hsent : Attempted L c link m w (.ok m.payload.length, c) w := .sent rfl (hnothing ▸ .refl w)
    rw [if_pos hempty]
    rw [hlength] at hsent
    exact hsent
  · have htelegram : m.telegram link = (m.outgoing link).line ++ (m.outgoing link).payload := by
      rw [m.payload_outgoing]
      exact if_neg hempty
    rw [if_neg hempty]
    have hsays := sends_sendOrClose (L := L) hc (m.outgoing link) m.payload.length w
    rw [← htelegram] at hsays
    refine wp_mono (wp_and (wp_sendOrClose hc) hsays) ?_
    rintro ⟨r, c'⟩ w' ⟨⟨hr, hc', htable⟩ | ⟨f, hr, hc', htable⟩, b, hsent, hsaid⟩
    · obtain rfl : r = .ok m.payload.length := hr
      obtain rfl : c' = c := hc'
      obtain rfl : b = m.telegram link := hsaid
      exact .sent htable hsent
    · obtain rfl : r = .error f := hr
      obtain rfl : c' = ⟨none⟩ := hc'
      obtain ⟨part, close, r, rfl, hpart, hclose⟩ := hsaid
      exact .closed (htable ▸ LinkTable.frees_release hlink) hpart hclose hsent

/-- **A message is sent, or its link is given back.** Whatever the device makes of the calls: an attempt
that succeeds counts the bytes of the message, and leaves the handle and the table as they were. One that
fails, wherever it does, takes the link from the handle and from the table, whatever the module says to
the close; no other link is touched. On a clock that passes the waits it ends one way or the other. -/
theorem send_or_close {σ : Type} [Device σ] (L : Ledger σ) {c : Client} {link : UInt8}
    (hc : c.link = some link) (hlink : link.toNat < linkCount) (m : Message) :
    (∀ (w : Wifi σ) r w', m.send c w = .ok r w' → Attempted L c link m w r w') ∧
      ∀ w : Wifi Bench, w.Patient → ∃ r w', m.send c w = .ok r w' := by
  refine ⟨fun w r w' hrun => ?_, fun w h => ?_⟩
  · exact wp_of_ok (wp_message L hc hlink m w) hrun
  · obtain ⟨r, w', hrun, -⟩ := (returns_message h hc m).exists_run (Engine.AtPace.refl w.driver.engine)
    exact ⟨r, w', hrun⟩

/-- The clock of these sessions is patient. -/
theorem patient_inUse (links : List Nat) (answers : List String) :
    (Session.inUse links answers).wifi.Patient := by
  have passes : ∀ timeout, (Session.inUse links answers).wifi.device.Passes timeout :=
    Bench.passes_of_step_one rfl
  exact ⟨⟨passes _, passes _⟩, passes _, passes _⟩

/-- Four bytes are confirmed, and the client keeps its link. When the module refuses to confirm them, the link
is free. -/
theorem send_or_close_inUse :
    let m : Message := .text "é" true
    (∃ w', m.send ⟨some 2⟩ (Session.inUse [0, 2] ["> ", "", "\r\nSEND OK\r\n"]).wifi =
        .ok (.ok 4, ⟨some 2⟩) w' ∧ w'.links.claimed = [0, 2]) ∧
      ∃ w', m.send ⟨some 2⟩ (Session.inUse [0, 2] ["> ", "", "\r\nERROR\r\n", "\r\nOK\r\n"]).wifi =
        .ok (.error (.rejected .error), ⟨none⟩) w' ∧ w'.links.slot? 2 = some {} := by
  intro m
  let w := (Session.inUse [0, 2] ["> ", "", "\r\nERROR\r\n", "\r\nOK\r\n"]).wifi
  have hlink : (⟨some 2⟩ : Client).link = some 2 := rfl
  obtain ⟨hattempted, hreturns⟩ := send_or_close Bench.ledger hlink (by decide) m
  constructor
  · obtain ⟨w', hrun⟩ : ∃ w', m.send ⟨some 2⟩
        (Session.inUse [0, 2] ["> ", "", "\r\nSEND OK\r\n"]).wifi = .ok (.ok 4, ⟨some 2⟩) w' :=
      value?_eq_some.1 (by decide +kernel)
    cases hattempted _ _ _ hrun with
    | sent table =>
      refine ⟨w', hrun, ?_⟩
      rw [table]
      decide +kernel
  · obtain ⟨r, w', hrun⟩ := hreturns w (patient_inUse _ _)
    have hvalue : value? (m.send ⟨some 2⟩) w = some (.error (.rejected .error), ⟨none⟩) := by
      decide +kernel
    obtain rfl := eq_of_value? hvalue hrun
    cases hattempted _ _ _ hrun with
    | closed frees => exact ⟨w', hrun, frees.freed⟩

end Client

end EspWifi
