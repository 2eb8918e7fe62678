import EspWifi.Proofs.At.Lines
import EspWifi.Proofs.Modem.Receiving
import EspWifi.Proofs.Session.Line

/-!
# Sending on the link

What the sends of the driver read and send, for any ledger of any device.

* `Outgoing`: the three ways to send a payload; `Outgoing.line`, `Outgoing.payload`: what goes out.
* `Outgoing.Ends`: **how far a send gets with each of its results.**
* `Driver.wp_ends`, `Driver.wp_send`: that is how far it gets.
* `Outgoing.send_accounts`: **a send transmits the bytes that it announces.**
-/

namespace EspWifi

open Run

variable {σ : Type} [Device σ]

/-- The ways to send a payload. -/
inductive Outgoing where
  | bytes (link : UInt8) (data : Bytes)
  | text (link : UInt8) (text : String) (crlf : Bool)
  | datagram (link : UInt8) (host : String) (port : UInt16) (data : Bytes)

namespace Outgoing

/-- Send a payload. -/
def send : Outgoing → Attempt (Driver σ) Unit
  | .bytes link data => Driver.sendBytes link data
  | .text link line crlf => Driver.sendText link line crlf
  | .datagram link host port data => Driver.sendDatagram link host port data

/-- The bytes that are to reach the other side. -/
def payload : Outgoing → Bytes
  | .bytes _ data => data
  | .text _ line crlf => utf8 line ++ if crlf then utf8 lineEnd else []
  | .datagram _ _ _ data => data

/-- The link that is to carry it. -/
def link : Outgoing → UInt8
  | .bytes link _ | .text link _ _ | .datagram link _ _ _ => link

/-- How an announcement names the other side. Only datagrams name it. -/
def destination : Outgoing → String
  | .bytes _ _ | .text _ _ _ => ""
  | .datagram _ host port _ => ",\"" ++ host ++ "\"," ++ toString port

/-- **The text of the announcement.** It says how many bytes the payload has. -/
def announcement (s : Outgoing) : String :=
  "AT+CIPSEND=" ++ toString s.link ++ "," ++ toString s.payload.length ++ s.destination

/-- The announcement as it goes over the link. -/
def line (s : Outgoing) : Bytes := lineBytes s.announcement

variable (L : Ledger σ) (s : Outgoing) (d : Driver σ)

/-- **The announcement was sent and the prompt was read after it**, the first one that came. -/
def Prompted (d₂ : Driver σ) : Prop :=
  ∃ c d₁, d.Moves L d₁ [] s.line ∧ d₁.Moves L d₂ (c ++ [ascii '>']) [] ∧ ascii '>' ∉ c

/-- What the bytes that were read after a payload say about it, result by result. -/
def Confirmation (c : Bytes) : Except Fault Unit → Prop
  | .ok () => Scan.Decided none true c (.matched .sendOk)
  | .error (.rejected t) => t ≠ .sendOk ∧ Scan.Decided none true c (.matched t)
  | .error .timeout => Scan.Silent none true c
  | .error _ => False

/-- **How far a send gets with each of its results.** -/
inductive Ends : Except Fault Unit → Driver σ → Prop
  /-- The announcement is too long. -/
  | refused {d' : Driver σ} (long : commandLimit < s.announcement.utf8ByteSize)
      (still : d.Moves L d' [] []) : Ends (.error .commandTooLong) d'
  /-- The time is over before the announcement is out. -/
  | lineCut {w : Bytes} {d' : Driver σ} (part : w <+: s.line) (sent : d.Moves L d' [] w) :
    Ends (.error .timeout) d'
  /-- No prompt comes in time. -/
  | unprompted {c : Bytes} {d₁ d' : Driver σ} (sent : d.Moves L d₁ [] s.line)
      (heard : d₁.Moves L d' c []) (silent : ascii '>' ∉ c) : Ends (.error .prompt) d'
  /-- The time is over before the payload is out. -/
  | payloadCut {w : Bytes} {d₂ d' : Driver σ} (prompted : s.Prompted L d d₂)
      (part : w <+: s.payload) (sent : d₂.Moves L d' [] w) : Ends (.error .timeout) d'
  /-- The payload is out. -/
  | paid {c : Bytes} {r : Except Fault Unit} {d₂ d₃ d' : Driver σ} (prompted : s.Prompted L d d₂)
      (sent : d₂.Moves L d₃ [] s.payload) (heard : d₃.Moves L d' c [])
      (confirmation : Confirmation c r) : Ends r d'

end Outgoing

namespace Driver

variable (L : Ledger σ) {d : Driver σ} {Q : Unit → Driver σ → Prop} {F : Fault → Driver σ → Prop}

/-- A failure that is noted in the log before anything else happens. -/
theorem wp_fail {message : String} {f : Fault}
    (hF : ∀ d', d.Moves L d' [] [] → F f d') :
    Attempt.wp True (do logError message; throw f) Q F d := by
  rw [Attempt.wp_bind]
  exact wp_record_moves' L hF

/-- **What is transmitted of some bytes**: a beginning of them if the time runs out, and all of them
if it does not. -/
theorem wp_transmit_moves {bytes : Bytes} (hQ : ∀ d', d.Moves L d' [] bytes → Q () d')
    (hF : ∀ w d', w <+: bytes → d.Moves L d' [] w → F .timeout d') :
    Attempt.wp True (transmit bytes) Q F d := by
  unfold transmit
  rw [wp_tryEngine]
  exact L.wp_transmit (fun e h => hQ _ ⟨h, rfl⟩) fun w e h hw => hF w _ hw ⟨h, rfl⟩

/-- **An announcement is sent, and then everything up to the first prompt is read.** -/
theorem wp_announce {pieces : List String}
    (prompted : ∀ c d₁ d₂, d.Moves L d₁ [] (lineBytes (String.join pieces)) →
      d₁.Moves L d₂ (c ++ [ascii '>']) [] → ascii '>' ∉ c → Q () d₂)
    (refused : commandLimit < (String.join pieces).utf8ByteSize → F .commandTooLong d)
    (cut : ∀ w d', w <+: lineBytes (String.join pieces) → d.Moves L d' [] w → F .timeout d')
    (unprompted : ∀ c d₁ d', d.Moves L d₁ [] (lineBytes (String.join pieces)) →
      d₁.Moves L d' c [] → ascii '>' ∉ c → F .prompt d') :
    Attempt.wp True (announce pieces) Q F d := by
  unfold announce
  rw [Attempt.wp_bind, Attempt.wp_liftResult, commandLine_eq]
  by_cases hfits : (String.join pieces).utf8ByteSize ≤ commandLimit
  case neg =>
    rw [if_neg hfits]
    exact refused (Nat.lt_of_not_le hfits)
  rw [if_pos hfits]
  show Attempt.wp True (do tryEngine (Engine.transmitLine (String.join pieces)); _) Q F d
  rw [Engine.transmitLine_eq hfits, Attempt.wp_bind]
  refine wp_transmit_moves L (fun d₁ h₁ => ?_) cut
  simp only [Attempt.wp_bind, Attempt.wp_lift, wp_onEngine]
  rw [wp_timeouts]
  unfold Engine.skipPast
  rw [wp_bind]
  refine L.wp_awaitTag_decided (fun c s e₂ h₂ _ hs => ?_) fun c e₂ h₂ _ hs => ?_
  · obtain rfl := Scan.eq_found_of hs.verdict
    obtain ⟨before, rfl, hbefore⟩ := hs.prompt_eq
    exact prompted before d₁ _ h₁ ⟨h₂, rfl⟩ hbefore
  · refine wp_fail L fun d₃ h₃ => unprompted c d₁ d₃ h₁ ?_ hs.prompt_not_mem
    have h : d₁.Moves L { d₁ with engine := e₂ } c [] := ⟨h₂, rfl⟩
    exact h.still h₃

/-- **A payload is confirmed by what is read after it.** -/
theorem wp_confirm
    (hQ : ∀ c d', d.Moves L d' c [] → Outgoing.Confirmation c (.ok ()) → Q () d')
    (hF : ∀ f c d', d.Moves L d' c [] → Outgoing.Confirmation c (.error f) → F f d') :
    Attempt.wp True confirm Q F d := by
  unfold confirm
  simp only [Attempt.wp_bind, Attempt.wp_lift, wp_onEngine]
  rw [wp_timeouts]
  have failed {message : String} {f : Fault} {c : Bytes} {e₁ : Engine σ}
      (h₁ : d.engine.Moves L e₁ c []) (hc : Outgoing.Confirmation c (.error f)) :
      Attempt.wp True (do logError message; throw f) Q F { d with engine := e₁ } := by
    refine wp_fail L fun d₂ h₂ => hF f c d₂ ?_ hc
    have h : d.Moves L { d with engine := e₁ } c [] := ⟨h₁, rfl⟩
    exact h.still h₂
  refine L.wp_awaitTag_decided (fun c s e₁ h₁ _ hs => ?_) fun c e₁ h₁ _ hs => failed h₁ hs
  obtain ⟨tag, rfl⟩ := Scan.eq_matched_of hs.verdict
  cases tag with
  | sendOk => exact hQ c _ ⟨h₁, rfl⟩ hs
  | _ => exact failed h₁ ⟨by decide, hs⟩

/-! ### A send as a whole -/

variable {s : Outgoing}

/-- What an announced payload comes to is what the send comes to. -/
theorem wp_announced {message : String} {pieces : List String} {rest : Attempt (Driver σ) Unit}
    (hline : String.join pieces = s.announcement)
    (hrest : ∀ d₂, s.Prompted L d d₂ → Run.wp True rest.run (s.Ends L d) d₂) :
    Run.wp True (do logDebug message; announce pieces; rest : Attempt (Driver σ) Unit).run
      (s.Ends L d) d := by
  rw [Attempt.wp_run, Attempt.wp_bind]
  refine wp_record_moves' L fun d₀ h₀ => ?_
  rw [Attempt.wp_bind]
  refine wp_announce L (fun c d₁ d₂ h₁ h₂ hc => ?_) (fun long => ?_) (fun w d' part h₁ => ?_)
    fun c d₁ d' h₁ h₂ hc => ?_
  · rw [hline] at h₁
    have prompted : s.Prompted L d d₂ := ⟨c, d₁, h₀.trans h₁, h₂, hc⟩
    exact Attempt.wp_run.1 (hrest d₂ prompted)
  · rw [hline] at long
    exact .refused long h₀
  · rw [hline] at part
    exact .lineCut part (h₀.trans h₁)
  · rw [hline] at h₁
    exact .unprompted (h₀.trans h₁) h₂ hc

/-- A part of the payload, after the part `w`. -/
theorem wp_pay {d₂ d₃ : Driver σ} {w bytes : Bytes} {rest : Attempt (Driver σ) Unit}
    (prompted : s.Prompted L d d₂) (before : d₂.Moves L d₃ [] w) (part : w ++ bytes <+: s.payload)
    (hrest : ∀ d₄, d₂.Moves L d₄ [] (w ++ bytes) → Run.wp True rest.run (s.Ends L d) d₄) :
    Run.wp True (do transmit bytes; rest : Attempt (Driver σ) Unit).run (s.Ends L d) d₃ := by
  rw [Attempt.wp_run, Attempt.wp_bind]
  refine wp_transmit_moves L (fun d₄ h => ?_) fun w' d' hw' h => ?_
  · exact Attempt.wp_run.1 (hrest d₄ (before.trans h))
  · have hpart : w ++ w' <+: s.payload := ((List.prefix_append_right_inj w).2 hw').trans part
    exact .payloadCut prompted hpart (before.trans h)

theorem wp_paid {d₂ d₃ : Driver σ} (prompted : s.Prompted L d d₂)
    (sent : d₂.Moves L d₃ [] s.payload) :
    Run.wp True (confirm : Attempt (Driver σ) Unit).run (s.Ends L d) d₃ :=
  Attempt.wp_run.2 <| wp_confirm L (fun _ _ h hc => .paid prompted sent h hc) fun _ _ _ h hc =>
    .paid prompted sent h hc

/-- **That is how far a send gets**, on every device. -/
theorem wp_ends (s : Outgoing) (d : Driver σ) : Run.wp True s.send.run (s.Ends L d) d := by
  have whole {data : Bytes} (hdata : data = s.payload) (d₂ : Driver σ)
      (prompted : s.Prompted L d d₂) :
      Run.wp True (do transmit data; confirm : Attempt (Driver σ) Unit).run (s.Ends L d) d₂ :=
    wp_pay L prompted (.refl d₂) (by rw [hdata]; exact List.prefix_refl _) fun d₄ h =>
      wp_paid L prompted (hdata ▸ h)
  cases s with
  | bytes link data =>
    refine wp_announced L ?_ (whole rfl)
    simp [Outgoing.announcement, Outgoing.payload, Outgoing.link, Outgoing.destination,
      String.join_cons, String.append_assoc]
  | datagram link host port data =>
    refine wp_announced L ?_ (whole rfl)
    simp [Outgoing.announcement, Outgoing.payload, Outgoing.link, Outgoing.destination,
      String.join_cons, String.append_assoc]
  | text link line crlf =>
    refine wp_announced L ?_ fun d₂ prompted => ?_
    · cases crlf <;> simp [Outgoing.announcement, Outgoing.payload, Outgoing.link,
        Outgoing.destination, String.join_cons, String.append_assoc, length_utf8]
    -- the line end is a part of the payload of its own
    refine wp_pay L prompted (.refl d₂) (List.prefix_append _ _) fun d₃ h₃ => ?_
    cases crlf with
    | true =>
      exact wp_pay L prompted h₃ (List.prefix_refl _) fun d₄ h₄ => wp_paid L prompted h₄
    | false =>
      refine wp_paid L prompted ?_
      show d₂.Moves L d₃ [] (utf8 line ++ [])
      rwa [List.append_nil]

end Driver

namespace Outgoing

variable {L : Ledger σ} {s : Outgoing} {d d' : Driver σ}

/-- **What was read and sent until a payload was prompted for.** -/
theorem Prompted.moves (h : s.Prompted L d d') :
    ∃ c, d.Moves L d' (c ++ [ascii '>']) s.line := by
  obtain ⟨c, d₁, hsent, hheard, -⟩ := h
  have h := hsent.trans hheard
  rw [List.append_nil] at h
  exact ⟨c, h⟩

theorem Ends.moves {r : Except Fault Unit} (h : s.Ends L d r d') : ∃ c w, d.Moves L d' c w := by
  cases h with
  | refused _ still => exact ⟨_, _, still⟩
  | lineCut _ sent => exact ⟨_, _, sent⟩
  | unprompted sent heard _ => exact ⟨_, _, sent.trans heard⟩
  | payloadCut prompted _ sent =>
    obtain ⟨c, h⟩ := prompted.moves
    exact ⟨_, _, h.trans sent⟩
  | paid prompted sent heard _ =>
    obtain ⟨c, h⟩ := prompted.moves
    exact ⟨_, _, (h.trans sent).trans heard⟩

end Outgoing

namespace Driver

/-- **A send that succeeds has read up to its prompt, and then up to its confirmation.** -/
theorem wp_send (L : Ledger σ) {d : Driver σ} {s : Outgoing} {Q : Unit → Driver σ → Prop}
    {F : Fault → Driver σ → Prop}
    (hQ : ∀ c c' w d', d.Moves L d' (c ++ c') w → [ascii '>'] <:+ c → Tag.sendOk.bytes <:+ c' →
      Q () d')
    (hF : ∀ f c w d', d.Moves L d' c w → F f d') : Attempt.wp True s.send Q F d := by
  refine Attempt.wp_mono (Attempt.wp_run.1 (wp_ends L s d)) (fun _ d' h => ?_) fun f d' h => ?_
  · cases h with
    | @paid c' _ _ _ _ prompted sent heard confirmation =>
      obtain ⟨c, hc⟩ := prompted.moves
      have h := (hc.trans sent).trans heard
      rw [List.append_nil (c ++ [ascii '>'])] at h
      have hsuffix : Tag.sendOk.bytes <:+ c' := Scan.suffix_of_matched confirmation.verdict
      exact hQ _ c' _ d' h (List.suffix_append _ _) hsuffix
  · obtain ⟨c, w, hmoves⟩ := h.moves
    exact hF f c w d' hmoves

end Driver

/-! ### What was sent -/

namespace Outgoing

variable (L : Ledger σ) (s : Outgoing) (d : Driver σ)

/-- **The announcement and the whole payload were sent**, and the first known tag that was read after
them is `t`. -/
def Answered (t : Tag) (d' : Driver σ) : Prop :=
  ∃ d₁ c c', d.Moves L d₁ c (s.line ++ s.payload) ∧ d₁.Moves L d' c' [] ∧
    Scan.Decided none true c' (.matched t)

/-- What each result of a send says of the bytes that were sent. -/
def Accounts : Except Fault Unit → Driver σ → Prop
  | .ok (), d' => s.Answered L d .sendOk d'
  | .error .commandTooLong, d' => d.Moves L d' [] []
  | .error .prompt, d' => ∃ c, d.Moves L d' c s.line
  | .error (.rejected t), d' => t ≠ .sendOk ∧ s.Answered L d t d'
  | .error .timeout, d' => ∃ c w, d.Moves L d' c w ∧ w <+: s.line ++ s.payload
  | .error _, _ => False

variable {L s d}

theorem Prompted.answered {t : Tag} {c : Bytes} {d₂ d₃ d' : Driver σ} (h : s.Prompted L d d₂)
    (sent : d₂.Moves L d₃ [] s.payload) (heard : d₃.Moves L d' c [])
    (hc : Scan.Decided none true c (.matched t)) : s.Answered L d t d' := by
  obtain ⟨_, hmoves⟩ := h.moves
  exact ⟨d₃, _, c, hmoves.trans sent, heard, hc⟩

theorem Ends.accounts {r : Except Fault Unit} {d' : Driver σ} (h : s.Ends L d r d') :
    s.Accounts L d r d' := by
  cases h with
  | refused _ still => exact still
  | lineCut part sent => exact ⟨_, _, sent, part.trans (List.prefix_append _ _)⟩
  | @unprompted c _ _ sent heard _ =>
    have h := sent.trans heard
    rw [List.append_nil] at h
    exact ⟨c, h⟩
  | payloadCut prompted part sent =>
    obtain ⟨_, hmoves⟩ := prompted.moves
    exact ⟨_, _, hmoves.trans sent, (List.prefix_append_right_inj _).2 part⟩
  | @paid c r _ _ _ prompted sent heard confirmation =>
    match r, confirmation with
    | .ok (), hc => exact prompted.answered sent heard hc
    | .error (.rejected t), ⟨hne, hc⟩ => exact ⟨hne, prompted.answered sent heard hc⟩
    | .error .timeout, _ =>
      obtain ⟨_, hmoves⟩ := prompted.moves
      have h := (hmoves.trans sent).trans heard
      rw [List.append_nil (s.line ++ s.payload)] at h
      exact ⟨_, _, h, List.prefix_refl _⟩

/-- **A send transmits the bytes that it announces.** Whatever the device makes of the calls: after a
send that succeeds, the announcement and the payload that it gives the length of are all that was
sent. A refused send has sent nothing, one without a prompt its announcement, one that is rejected has
sent all, and one that runs out of time a beginning of it. It fails in no other way. -/
theorem send_accounts (L : Ledger σ) (s : Outgoing) {d d' : Driver σ} {r : Except Fault Unit}
    (h : s.send.run d = .ok r d') : s.Accounts L d r d' := by
  have hends : s.Ends L d r d' := wp_of_ok (Driver.wp_ends L s d) h
  exact hends.accounts

/-- A transmitter that takes a few bytes at a time, and nothing once. -/
def slowPrompt : Driver Bench where
  engine := { device := {
    limits := [3, 0, 7, 1]
    replies := [[], [], [], [(0, utf8 "> ")], [], [(0, utf8 "\r\nSEND OK\r\n")]] } }

/-- Two bytes for the letter, and two for the line end. -/
theorem send_accounts_slowPrompt :
    ∃ d', (Outgoing.text 0 "é" true).send.run slowPrompt = .ok (.ok ()) d' ∧
      d'.engine.device.sent = utf8 "AT+CIPSEND=0,4\r\né\r\n" := by
  obtain ⟨d', hsend⟩ : ∃ d', (Outgoing.text 0 "é" true).send.run slowPrompt = .ok (.ok ()) d' :=
    value?_eq_some.1 (by decide +kernel)
  obtain ⟨d₁, c, c', hsent, hheard, -⟩ := send_accounts Bench.ledger (.text 0 "é" true) hsend
  refine ⟨d', hsend, ?_⟩
  rw [hheard.engine.device.2, hsent.engine.device.2]
  decide +kernel

end Outgoing

end EspWifi
