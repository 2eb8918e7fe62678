import EspWifi.Proofs.Modem.Patience
import EspWifi.Proofs.Session.Journal

/-!
# The prompt of a send

A send announces its payload and waits for a prompt, a single byte that it looks for in a stream it
has not emptied. The journal of a run tells whether that prompt can have been the answer to the
announcement.

* `Outgoing.send_journaled`: the journal of a send, which changes nothing.
* `Outgoing.stale`, `Outgoing.fresh`: what is there before the announcement is out, and what comes
  after it.
* `Outgoing.send_takes_prompt`: **the first prompt is taken**, and with no prompt among what is stale
  that is a fresh one.
-/

namespace EspWifi

open Run Passages

variable {α : Type}

/-! ### Sends before a journal -/

/-- A driver without the journal. -/
def Driver.bare (d : Driver Journal) : Driver Bench where
  engine := d.engine.bare
  packet := d.packet
  version := d.version
  networks := d.networks

/-- A driver with a journal that has these entries. -/
def Driver.journaled (d : Driver Bench) (es : Passages) : Driver Journal where
  engine := {
    device := ⟨d.engine.device, es⟩
    window := d.engine.window
    timeouts := d.engine.timeouts
    dropped := d.engine.dropped }
  packet := d.packet
  version := d.version
  networks := d.networks

namespace Journal

theorem same_onEngine {m : Run (Engine Bench) α} {m' : Run (Engine Journal) α}
    (h : Same Engine.bare m m') : Same Driver.bare (onEngine m) (onEngine m') := by
  rintro _ d rfl
  refine both_focus (both_mono (h _ _ rfl) ?_)
  rintro a e _ e' ⟨rfl, rfl⟩
  exact ⟨rfl, rfl⟩

theorem same_tryEngine {x : Attempt (Engine Bench) α} {x' : Attempt (Engine Journal) α}
    (h : Attempt.Same Engine.bare x x') : Attempt.Same Driver.bare (tryEngine x) (tryEngine x') :=
  same_onEngine h

theorem same_timeouts : Same Driver.bare Driver.timeouts Driver.timeouts :=
  .get_bind fun _ _ h => h ▸ .pure _

/-- A note in the log before something else. -/
theorem same_logged {level : Level} {message : String} {x : Attempt (Driver Bench) α}
    {x' : Attempt (Driver Journal) α} (h : Attempt.Same Driver.bare x x') :
    Attempt.Same Driver.bare (do MonadLog.record level message; x)
      (do MonadLog.record level message; x') :=
  .bind (.lift (same_onEngine (same_record level message))) fun _ => h

theorem same_announce (pieces : List String) :
    Attempt.Same Driver.bare (Driver.announce pieces) (Driver.announce pieces) :=
  .bind (.liftResult _) fun _ => .bind (same_tryEngine (.bind (.liftResult _) fun _ =>
    .bind (.liftResult _) fun _ => same_transmit _)) fun _ => .bind (.lift same_timeouts) fun _ =>
      .bind (.lift (same_onEngine (same_skipPast _ _))) fun _ =>
        .ite (.pure _) (same_logged (.throw _))

theorem same_confirm : Attempt.Same Driver.bare Driver.confirm Driver.confirm := by
  refine .bind (.lift same_timeouts) fun _ =>
    .bind (.lift (same_onEngine (same_awaitTag _ _ _))) fun scan => ?_
  cases scan with
  | matched t =>
    cases t with
    | sendOk => exact .pure _
    | _ => exact same_logged (.throw _)
  | found => exact same_logged (.throw _)
  | timedOut => exact same_logged (.throw _)

theorem same_payload (bytes : Bytes) :
    Attempt.Same Driver.bare (Driver.transmit bytes) (Driver.transmit bytes) :=
  same_tryEngine (same_transmit bytes)

/-- **A send does before a journal what it does without.** -/
theorem same_send (s : Outgoing) : Attempt.Same Driver.bare s.send s.send := by
  cases s with
  | bytes link data =>
    exact same_logged <| .bind (same_announce _) fun _ => .bind (same_payload _) fun _ =>
      same_confirm
  | datagram link host port data =>
    exact same_logged <| .bind (same_announce _) fun _ => .bind (same_payload _) fun _ =>
      same_confirm
  | text link line crlf =>
    exact same_logged <| .bind (same_announce _) fun _ => .bind (same_payload _) fun _ =>
      .ite (.bind (same_payload _) fun _ => same_confirm) same_confirm

end Journal

/-- **The journal of a send**: what happens on the line in a run on the bench. -/
theorem Outgoing.send_journaled {s : Outgoing} {d d' : Driver Bench} {r : Except Fault Unit}
    (h : s.send.run d = .ok r d') :
    ∃ es, s.send.run (d.journaled []) = .ok r (d'.journaled es) ∧
      s.Ends Journal.ledger (d.journaled []) r (d'.journaled es) := by
  obtain ⟨_, j, hrun, rfl, rfl⟩ := both_of_ok (Journal.same_send s d (d.journaled []) rfl) h
  refine ⟨j.engine.device.entries, hrun, ?_⟩
  exact wp_of_ok (Driver.wp_ends Journal.ledger s _) hrun

/-! ### Which prompt is taken -/

namespace Outgoing

variable (s : Outgoing)

/-- What is there before the last byte of the announcement is sent: what was waiting at first, and what
has arrived since. -/
def stale (waiting : Bytes) (es : Passages) : Bytes :=
  waiting ++ only .arrived (within (s.line.length - 1) es)

/-- What arrives after the announcement is out, and before the first byte of the payload is sent. -/
def fresh (es : Passages) : Bytes :=
  only .arrived ((within s.line.length es).drop (within (s.line.length - 1) es).length)

/-- **The module was waited for**: a prompt arrived after the announcement and before the payload, or
the send has failed and nothing but the announcement was sent. -/
def Awaited (r : Except Fault Unit) (es : Passages) : Prop :=
  ascii '>' ∈ s.fresh es ∨ r.isOk = false ∧ only .sent es <+: s.line

instance (r : Except Fault Unit) (es : Passages) : Decidable (s.Awaited r es) :=
  inferInstanceAs (Decidable (_ ∨ _ ∧ _))

/-- **The journal of a send that has read a prompt.** After the last byte of the announcement it reads
up to the first prompt, and nothing more before a byte of the payload is sent. -/
inductive Heeded (waiting : Bytes) : Passages → Prop
  | intro {before after rest : Passages} {x : UInt8} {c left : Bytes}
      (line : only .sent before ++ [x] = s.line) (unread : only .heard before = [])
      (silent : only .sent after = []) (read : only .heard after = c ++ [ascii '>'])
      (first : ascii '>' ∉ c)
      (queue : waiting ++ only .arrived before ++ only .arrived after = c ++ ascii '>' :: left)
      (next : only .sent rest ≠ [] → only .heard (within 0 rest) = []) :
      Heeded waiting (before ++ (.sent, x) :: (after ++ rest))

variable {s} {waiting : Bytes} {es : Passages}

namespace Heeded

/-- The parts of the journal, told apart by the bytes that were sent. -/
theorem parts {before after : Passages} {x : UInt8} (rest : Passages)
    (line : only .sent before ++ [x] = s.line) (silent : only .sent after = []) :
    within (s.line.length - 1) (before ++ (.sent, x) :: (after ++ rest)) = before ∧
      within s.line.length (before ++ (.sent, x) :: (after ++ rest)) =
        before ++ (.sent, x) :: after ++ within 0 rest := by
  have hlength : s.line.length = (only .sent before).length + 1 := by
    rw [← line, List.length_append, List.length_singleton]
  constructor
  · rw [hlength, Nat.add_sub_cancel]
    exact within_sent _ _ _
  · have hsent : (only .sent (before ++ (.sent, x) :: after)).length = s.line.length := by
      rw [only_append, only_cons, if_pos rfl, silent, line]
    have h := within_append (before ++ (.sent, x) :: after) rest 0
    rw [hsent, Nat.add_zero] at h
    rw [← h, List.append_assoc]
    rfl

/-- A prompt that was not there before came after the announcement. -/
theorem fresh (h : s.Heeded waiting es) (hstale : ascii '>' ∉ s.stale waiting es) :
    ascii '>' ∈ s.fresh es := by
  obtain @⟨before, after, rest, x, c, left, line, -, silent, -, -, queue, -⟩ := h
  obtain ⟨hbefore, hafter⟩ := parts rest line silent
  unfold Outgoing.stale at hstale
  rw [hbefore] at hstale
  have hprompt : ascii '>' ∈ only .arrived after := by
    have hmem : ascii '>' ∈ waiting ++ only .arrived before ++ only .arrived after := by
      rw [queue]
      exact List.mem_append_right _ List.mem_cons_self
    exact (List.mem_append.1 hmem).resolve_left hstale
  unfold Outgoing.fresh
  rw [hbefore, hafter, List.append_assoc, List.drop_left, only_append]
  exact List.mem_append_left _ (by simpa using hprompt)

/-- **A prompt that was there before is the one that is taken.** -/
theorem stale (h : s.Heeded waiting es) (hstale : ascii '>' ∈ s.stale waiting es)
    (hpaid : s.line.length < (only .sent es).length) :
    ∃ c, only .heard (within s.line.length es) = c ++ [ascii '>'] ∧ ascii '>' ∉ c ∧
      c ++ [ascii '>'] <+: s.stale waiting es := by
  obtain @⟨before, after, rest, x, c, left, line, unread, silent, read, first, queue, next⟩ := h
  obtain ⟨hbefore, hafter⟩ := parts rest line silent
  unfold Outgoing.stale at hstale ⊢
  rw [hbefore] at hstale ⊢
  refine ⟨c, ?_, first, ?_⟩
  · have hrest : only .sent rest ≠ [] := by
      intro hnone
      have hsent : only .sent (before ++ (.sent, x) :: (after ++ rest)) = s.line := by
        rw [only_append, only_cons, if_pos rfl, only_append, silent, hnone, ← line]
        rfl
      rw [hsent] at hpaid
      exact Nat.lt_irrefl _ hpaid
    rw [hafter, only_append, only_append, unread, next hrest, List.append_nil, List.nil_append]
    simpa using read
  · -- had it ended before the prompt, that prompt would not be the first
    have hread : c ++ [ascii '>'] <+: waiting ++ only .arrived before ++ only .arrived after := by
      rw [queue]
      exact ⟨left, by simp⟩
    rcases List.prefix_or_prefix_of_prefix hread (List.prefix_append _ _) with h | h
    · exact h
    · rcases List.prefix_concat_iff.1 h with heq | hshort
      · rw [heq]
      · exact absurd (hshort.subset hstale) first

end Heeded

/-- Nothing is read before the first byte of a payload is sent. -/
theorem heard_within_zero {pay confirmed : Passages} (hpay : only .heard pay = [])
    (hconfirmed : only .sent confirmed = []) (h : only .sent (pay ++ confirmed) ≠ []) :
    only .heard (within 0 (pay ++ confirmed)) = [] := by
  rw [only_append, hconfirmed, List.append_nil] at h
  obtain ⟨y, w, hsent⟩ := List.exists_cons_of_ne_nil h
  obtain ⟨before, after, rfl, hbefore, -⟩ := exists_of_only (w := []) hsent
  have hwithin := within_sent before (after ++ confirmed) y
  rw [hbefore, List.length_nil] at hwithin
  rw [List.append_assoc, List.cons_append, hwithin]
  rw [only_append] at hpay
  exact (List.append_eq_nil_iff.1 hpay).1

/-- The announcement has a last byte. -/
theorem exists_line_eq (s : Outgoing) : ∃ w x, s.line = w ++ [x] := by
  have hne : s.line ≠ [] := by
    intro hnil
    have hlength := length_lineBytes s.announcement
    rw [show lineBytes s.announcement = [] from hnil] at hlength
    exact absurd hlength (by simp)
  exact ⟨_, _, (List.dropLast_append_getLast hne).symm⟩

/-- **A prompt that was read is followed by the payload.** -/
theorem Prompted.heeded {d d₂ d₃ d' : Driver Journal} {c w : Bytes}
    (prompted : s.Prompted Journal.ledger d d₂) (sent : d₂.Moves Journal.ledger d₃ [] w)
    (heard : d₃.Moves Journal.ledger d' c []) (hd : d.engine.device.entries = []) :
    s.Heeded d.engine.device.bench.queue d'.engine.device.entries := by
  obtain ⟨c', d₁, hline, hprompt, first⟩ := prompted
  obtain ⟨announced, h₁, unread, hsent⟩ := hline.engine.device
  obtain ⟨after', h₂, read, silent⟩ := hprompt.engine.device
  obtain ⟨pay, h₃, hpay, -⟩ := sent.engine.device
  obtain ⟨confirmed, h₄, -, hconfirmed⟩ := heard.engine.device
  obtain ⟨u, x, hlast⟩ := s.exists_line_eq
  obtain ⟨before, after, rfl, hbefore, hafter⟩ := exists_of_only (hsent.trans hlast)
  rw [only_append, only_cons, if_neg nofun] at unread
  obtain ⟨hunread, hafterUnread⟩ := List.append_eq_nil_iff.1 unread
  have hentries : d'.engine.device.entries =
      before ++ (.sent, x) :: ((after ++ after') ++ (pay ++ confirmed)) := by
    rw [h₄.entries, h₃.entries, h₂.entries, h₁.entries, hd]
    simp
  have hsilent : only .sent (after ++ after') = [] := by rw [only_append, hafter, silent]; rfl
  have hread : only .heard (after ++ after') = c' ++ [ascii '>'] := by
    rw [only_append, hafterUnread, read]
    rfl
  have hqueue : d.engine.device.bench.queue ++ only .arrived before ++
      only .arrived (after ++ after') = c' ++ ascii '>' :: d₂.engine.device.bench.queue := by
    have h := (h₁.trans h₂).queue
    simpa [hunread, hafterUnread, read] using h
  have hlineSent : only .sent before ++ [x] = s.line := by rw [hbefore, hlast]
  rw [hentries]
  exact .intro hlineSent hunread hsilent hread first hqueue fun h =>
    heard_within_zero hpay hconfirmed h

/-- A send either fails before its payload, or it has read a prompt. -/
theorem Ends.heeded {d d' : Driver Journal} {r : Except Fault Unit}
    (h : s.Ends Journal.ledger d r d') (hd : d.engine.device.entries = []) :
    r.isOk = false ∧ only .sent d'.engine.device.entries <+: s.line ∨
      s.Heeded d.engine.device.bench.queue d'.engine.device.entries := by
  have sent {c w : Bytes} (h : d.Moves Journal.ledger d' c w) :
      only .sent d'.engine.device.entries = w := by
    obtain ⟨es, hes, -, hsent⟩ := h.engine.device
    rw [hes.entries, hd]
    exact hsent
  cases h with
  | refused _ still => exact .inl ⟨rfl, by rw [sent still]; exact List.nil_prefix⟩
  | lineCut part hsent => exact .inl ⟨rfl, by rw [sent hsent]; exact part⟩
  | unprompted hsent heard _ =>
    have h := sent (hsent.trans heard)
    rw [List.append_nil] at h
    exact .inl ⟨rfl, by rw [h]⟩
  | payloadCut prompted _ hsent => exact .inr (prompted.heeded hsent (.refl d') hd)
  | paid prompted hsent heard _ => exact .inr (prompted.heeded hsent heard hd)

/-- **Which prompt a send takes**, whatever waits, arrives and is answered on the bench. If the clock
passes its timeouts, it returns. In every run that returns: if no prompt is there before the last byte of
the announcement is sent, then one arrives after it and before the payload goes out, or the send fails
and nothing but the announcement is sent. If one is there, what is read before the payload goes out was
all there before the announcement was out, and ends with that prompt: no answer to the announcement is
waited for. -/
theorem send_takes_prompt (s : Outgoing) (d : Driver Bench) :
    (d.Patient → ∃ r d', s.send.run d = .ok r d') ∧
    ∀ r d', s.send.run d = .ok r d' →
      ∃ es, s.send.run (d.journaled []) = .ok r (d'.journaled es) ∧
        (ascii '>' ∉ s.stale d.engine.device.queue es → s.Awaited r es) ∧
        (ascii '>' ∈ s.stale d.engine.device.queue es →
          s.line.length < (only .sent es).length →
            ∃ c, only .heard (within s.line.length es) = c ++ [ascii '>'] ∧ ascii '>' ∉ c ∧
              c ++ [ascii '>'] <+: s.stale d.engine.device.queue es) := by
  refine ⟨fun h => h.exists_send s, fun r d' h => ?_⟩
  obtain ⟨es, hrun, hends⟩ := send_journaled h
  refine ⟨es, hrun, ?_⟩
  rcases hends.heeded rfl with hfailed | hheeded
  · have hshort : ¬ s.line.length < (only .sent es).length := Nat.not_lt.2 hfailed.2.length_le
    exact ⟨fun _ => .inr hfailed, fun _ hpaid => absurd hpaid hshort⟩
  · exact ⟨fun hstale => .inl (hheeded.fresh hstale), hheeded.stale⟩

/-- An unread packet waits, and the module prompts three milliseconds after the announcement. -/
def latePrompt : Driver Bench where
  engine := { device := {
    rx := utf8 "+IPD,0,2:hi"
    replies := [[(3, utf8 "> ")], [(0, utf8 "\r\nSEND OK\r\n")]] } }

theorem send_takes_latePrompt : latePrompt.Patient ∧
    ∃ es, ∃ d' : Driver Bench, (Outgoing.bytes 0 (utf8 "x")).send.run (latePrompt.journaled []) =
        .ok (.ok ()) (d'.journaled es) ∧ ascii '>' ∈ (Outgoing.bytes 0 (utf8 "x")).fresh es := by
  let s : Outgoing := .bytes 0 (utf8 "x")
  have hpatient : latePrompt.Patient :=
    ⟨Bench.passes_of_step (by decide) (by decide), Bench.passes_of_step (by decide) (by decide)⟩
  obtain ⟨hreturns, htakes⟩ := send_takes_prompt s latePrompt
  obtain ⟨r, d', hsend⟩ := hreturns hpatient
  obtain rfl : r = .ok () := by
    have hvalue : value? s.send.run latePrompt = some (.ok ()) := by decide +kernel
    exact Option.some.inj ((value?_eq_some.2 ⟨d', hsend⟩).symm.trans hvalue)
  obtain ⟨es, hrun, hawaited, -⟩ := htakes _ d' hsend
  have hstale : value? (do
      let _ ← s.send.run
      let es := (← get).engine.device.entries
      return decide (ascii '>' ∈ s.stale latePrompt.engine.device.queue es))
      (latePrompt.journaled []) = some false := by decide +kernel
  obtain ⟨_, _, hrun', hnone⟩ := value?_bind_eq_some.1 hstale
  cases hrun.symm.trans hrun'
  have hnone : ascii '>' ∉ s.stale latePrompt.engine.device.queue es :=
    of_decide_eq_false (Option.some.inj hnone)
  rcases hawaited hnone with hfresh | ⟨hfailed, -⟩
  · exact ⟨hpatient, es, d', hrun, hfresh⟩
  · exact absurd hfailed (by decide)

/-- A packet waits whose payload is a prompt, and the module answers the announcement with an error. -/
def strayPrompt : Driver Bench where
  engine := { device := {
    rx := utf8 "+IPD,0,1:>"
    replies := [[(0, utf8 "\r\nERROR\r\n")]] } }

/-- **A stray prompt lets the payload out.** No prompt has arrived since the announcement. -/
theorem stray_prompt_pays :
    ∃ d', (Outgoing.bytes 0 (utf8 "x")).send.run (strayPrompt.journaled []) =
        .ok (.error (.rejected .error)) d' ∧
      only .sent d'.engine.device.entries = utf8 "AT+CIPSEND=0,1\r\nx" ∧
      ¬ (Outgoing.bytes 0 (utf8 "x")).Awaited (.error (.rejected .error))
        d'.engine.device.entries := by
  have heval : value? (do
      let r ← (Outgoing.bytes 0 (utf8 "x")).send.run
      let es := (← get).engine.device.entries
      return (r, only .sent es, decide ((Outgoing.bytes 0 (utf8 "x")).Awaited r es)))
      (strayPrompt.journaled []) =
        some (.error (.rejected .error), utf8 "AT+CIPSEND=0,1\r\nx", false) := by decide +kernel
  obtain ⟨r, d', hrun, hvalue⟩ := value?_bind_eq_some.1 heval
  obtain ⟨rfl, hsent, hawaited⟩ : r = .error (.rejected .error) ∧
      only .sent d'.engine.device.entries = utf8 "AT+CIPSEND=0,1\r\nx" ∧
      decide ((Outgoing.bytes 0 (utf8 "x")).Awaited r d'.engine.device.entries) = false := by
    simpa [value?_bind_eq_some, Prod.ext_iff] using Option.some.inj hvalue
  exact ⟨d', hrun, hsent, of_decide_eq_false hawaited⟩

end Outgoing

end EspWifi
