import EspWifi.Proofs.At.Turns
import EspWifi.Proofs.Text.Decimal
import Mathlib.Data.Nat.Digits.Defs

/-!
# What the firmware says

The conversation of the firmware with the module, from the first probe to the clients it serves.

* `Firmware.Phase`: how far it has come.
* `Firmware.Tells`, `Firmware.Asks`: what it says in each phase, and which answers decide.
* `Firmware.order`: the conversation.
* `Firmware.sentBytes_of_not_probed`: **nothing but probes is sent until one of them is answered**.
* `Firmware.sentBytes_opening`: **the probes and the commands that set the module up come first**.
-/

namespace EspWifi.Firmware

open LinkEvent

/-- How far the firmware has come. -/
inductive Phase where
  /-- The module has not answered yet, and is probed `left` more times at most. -/
  | probing (left : Nat)
  /-- The module has answered. The commands `left` are still to be sent, then the network is joined. -/
  | settingUp (left : List String)
  /-- The network is joined. The commands `left` are still to be sent, then clients are served. -/
  | starting (left : List String)
  /-- A payload of `n` bytes was announced on a link, and the module has asked for it. -/
  | sending (link : UInt8) (n : Nat)
  /-- A send on a link has failed. -/
  | failed (link : UInt8)

/-- The commands before the network is joined. -/
def setUpCommands : List String :=
  ["AT+RST", "ATE0", "AT+CWMODE=1", "AT+CIPMUX=1", "AT+CIPDINFO=1", "AT+CWAUTOCONN=0",
    "AT+CWDHCP=1,1", "AT+GMR"]

def joinCommand : String := "AT+CWJAP_CUR=\"energyShield\",\"energyShield2\""

/-- The commands after the network is joined. -/
def startCommands : List String := ["AT+CIFSR", "AT+CIPSERVER=1,23"]

def sendCommand (link : UInt8) (n : Nat) : String := s!"AT+CIPSEND={link},{n}"

def closeCommand (link : UInt8) : String := s!"AT+CIPCLOSE={link}"

/-- **Commands whose outcome decides nothing.** -/
inductive Tells : Phase → Bytes → Phase → Prop
  | setUp {text : String} {left : List String} (known : text ∈ setUpCommands) :
    Tells (.settingUp (text :: left)) (lineBytes text) (.settingUp left)
  | start {text : String} {left : List String} (known : text ∈ startCommands) :
    Tells (.starting (text :: left)) (lineBytes text) (.starting left)
  | close {link : UInt8} : Tells (.failed link) (lineBytes (closeCommand link)) (.starting [])

/-- **What waits for an answer.** The module is probed until it answers, and the network is joined in as
many tries as it takes. A send asks for the prompt, then for the confirmation of its payload. -/
inductive Asks : Phase → Bytes → (Bytes → Prop) → Phase → Phase → Prop
  | probe {left : Nat} :
    Asks (.probing (left + 1)) (lineBytes "AT") Tag.ok.Answers (.settingUp setUpCommands)
      (.probing left)
  | join : Asks (.settingUp []) (lineBytes joinCommand) Tag.ok.Answers (.starting startCommands)
      (.settingUp [])
  | send {link : UInt8} {n : Nat} (isLink : link ≤ 3) (notEmpty : 1 ≤ n) (short : n ≤ 64) :
    Asks (.starting []) (lineBytes (sendCommand link n)) (ascii '>' ∈ ·) (.sending link n)
      (.failed link)
  | payload {link : UInt8} {n : Nat} {w : Bytes} (length : w.length = n) (short : n ≤ 64) :
    Asks (.sending link n) w Tag.sendOk.Answers (.starting []) (.failed link)

theorem utf8ByteSize_toString_le {n e : Nat} (he : 0 < e) (h : n < 10 ^ e) :
    (toString n).utf8ByteSize ≤ e := by
  have hdigits : (decimal n).length = (decimalDigits n).length := by
    rw [decimal_eq, List.length_map]
  calc (toString n).utf8ByteSize = (decimalDigits n).length := hdigits
    _ ≤ e := Nat.toDigits_length 10 n e he h

theorem utf8ByteSize_link_le (link : UInt8) : (toString link).utf8ByteSize ≤ 3 :=
  utf8ByteSize_toString_le (n := link.toNat) (by decide) (by have := link.toNat_lt; omega)

theorem tells_fits {p q : Phase} {w : Bytes} (h : Tells p w q) : w.length ≤ lineCapacity := by
  have short : ∀ text ∈ setUpCommands ++ startCommands, text.utf8ByteSize ≤ commandLimit := by decide
  cases h with
  | setUp known =>
    rw [length_lineBytes]
    exact Nat.add_le_add_right (short _ (List.mem_append_left _ known)) 2
  | start known =>
    rw [length_lineBytes]
    exact Nat.add_le_add_right (short _ (List.mem_append_right _ known)) 2
  | @close link =>
    have hlink := utf8ByteSize_link_le link
    have htext : (closeCommand link).utf8ByteSize = 12 + (toString link).utf8ByteSize :=
      String.utf8ByteSize_append
    unfold lineCapacity commandLimit
    rw [length_lineBytes, htext]
    omega

theorem asks_fits {p yes no : Phase} {w : Bytes} {A : Bytes → Prop} (h : Asks p w A yes no) :
    w.length ≤ lineCapacity := by
  cases h with
  | probe => decide
  | join => decide
  | @send link n isLink _ short =>
    have hlink := utf8ByteSize_link_le link
    have hlength : (toString n).utf8ByteSize ≤ 2 := utf8ByteSize_toString_le (by decide) (by omega)
    have htext : (sendCommand link n).utf8ByteSize =
        11 + (toString link).utf8ByteSize + 1 + (toString n).utf8ByteSize := by
      unfold sendCommand
      rw [String.utf8ByteSize_append, String.utf8ByteSize_append, String.utf8ByteSize_append]
      rfl
    unfold lineCapacity commandLimit
    rw [length_lineBytes, htext]
    omega
  | payload length short =>
    unfold lineCapacity commandLimit
    omega

/-- **The conversation of the firmware with the module.** -/
def order : Conversation Phase where
  start := .probing 5
  tells := Tells
  asks := Asks
  tells_fits := tells_fits
  asks_fits := asks_fits

/-! ### Probes without an answer -/

/-- The bytes of `n` probes. -/
def probes (n : Nat) : Bytes := (List.replicate n (lineBytes "AT")).flatten

theorem probes_succ (n : Nat) : probes (n + 1) = probes n ++ lineBytes "AT" := by
  unfold probes
  rw [List.replicate_succ', List.flatten_append, List.flatten_singleton]

/-- One more probe is one fewer that is left. -/
theorem probes_left {left : Nat} (h : left + 1 ≤ 5) :
    probes (5 - (left + 1)) ++ lineBytes "AT" = probes (5 - left) := by
  have hcount : 5 - left = 5 - (left + 1) + 1 := by omega
  rw [hcount, probes_succ]

theorem probes_mono {m n : Nat} (h : m ≤ n) : probes m <+: probes n := by
  induction h with
  | refl => exact List.prefix_refl _
  | step _ ih =>
    rw [probes_succ]
    exact ih.trans (List.prefix_append _ _)

/-- **The record begins with `before` and a probe that was answered.** -/
def ProbedAfter (before es : List LinkEvent) : Prop :=
  ∃ c, Tag.ok.Answers c ∧ before ++ (send (lineBytes "AT") ++ hear c) <+: es

/-- **One of the probes was answered.** -/
def Probed (es : List LinkEvent) : Prop := ∃ before, ProbedAfter before es

/-- A pause after a question sends nothing. -/
theorem sentBytes_unanswered (w c : Bytes) (ms : UInt32) :
    sentBytes (send w ++ hear c ++ [paused ms]) = w := by
  rw [sentBytes_append, sentBytes_exchange]
  exact List.append_nil _

/-- A turn while the module is probed: one probe, answered or not. -/
theorem turn_probing {left : Nat} {es : List LinkEvent} {q : Phase}
    (h : order.Turn (.probing left) es q) :
    ∃ rest, left = rest + 1 ∧
      ((∃ c, Tag.ok.Answers c ∧ es = send (lineBytes "AT") ++ hear c) ∨
        q = .probing rest ∧ sentBytes es = lineBytes "AT") := by
  cases h with
  | told h => cases h
  | answered h answer =>
    cases h
    exact ⟨_, rfl, .inl ⟨_, answer, rfl⟩⟩
  | unanswered h =>
    cases h
    refine ⟨_, rfl, .inr ⟨rfl, ?_⟩⟩
    exact sentBytes_unanswered _ _ _

/-- As long as no probe was answered, probes are all that was sent. -/
theorem probing_or_probed {es : List LinkEvent} {p : Phase} (h : order.Leads es p) :
    (∃ left ≤ 5, p = .probing left ∧ sentBytes es = probes (5 - left)) ∨
      ∃ n < 5, ∃ before, sentBytes before = probes n ∧ ProbedAfter before es := by
  have extend {es es' : List LinkEvent}
      (h : ∃ n < 5, ∃ before, sentBytes before = probes n ∧ ProbedAfter before es) :
      ∃ n < 5, ∃ before, sentBytes before = probes n ∧ ProbedAfter before (es ++ es') := by
    obtain ⟨n, hn, before, hbefore, c, answer, hes⟩ := h
    exact ⟨n, hn, before, hbefore, c, answer, hes.trans (List.prefix_append _ _)⟩
  induction h with
  | start => exact .inl ⟨5, Nat.le_refl 5, rfl, rfl⟩
  | quiet _ quiet ih =>
    rcases ih with ⟨left, hleft, rfl, hsent⟩ | probed
    · refine .inl ⟨left, hleft, rfl, ?_⟩
      rw [sentBytes_append, sentBytes_eq_nil quiet, List.append_nil, hsent]
    · exact .inr (extend probed)
  | turn _ turn ih =>
    rcases ih with ⟨left, hleft, rfl, hsent⟩ | probed
    · obtain ⟨rest, rfl, ⟨c, answer, rfl⟩ | ⟨rfl, hprobe⟩⟩ := turn_probing turn
      · exact .inr ⟨5 - (rest + 1), by omega, _, hsent, c, answer, List.prefix_refl _⟩
      · refine .inl ⟨rest, by omega, rfl, ?_⟩
        rw [sentBytes_append, hsent, hprobe, probes_left hleft]
    · exact .inr (extend probed)

/-- **A module that answers none of the probes is sent five of them at most, and nothing else.** -/
theorem sentBytes_of_not_probed {es : List LinkEvent} (h : order.InOrder es) (unanswered : ¬ Probed es) :
    sentBytes es <+: probes 5 := by
  obtain ⟨more, p, leads⟩ := h
  rcases probing_or_probed leads with ⟨left, -, -, hsent⟩ | ⟨n, hn, before, hbefore, c, answer, hes⟩
  · rw [sentBytes_append] at hsent
    exact (hsent ▸ List.prefix_append _ _).trans (probes_mono (Nat.sub_le 5 left))
  · rcases List.prefix_or_prefix_of_prefix (List.prefix_append es more) hes with h | h
    · -- the record ends before the first answer does
      obtain ⟨rest, h⟩ := h
      have hsent := congrArg sentBytes h
      rw [sentBytes_append, sentBytes_append, sentBytes_exchange, hbefore, ← probes_succ] at hsent
      exact (hsent ▸ List.prefix_append _ _).trans (probes_mono hn)
    · exact absurd ⟨before, c, answer, h⟩ unanswered

/-! ### The commands that set the module up -/

/-- The bytes of some lines. -/
def lines (texts : List String) : Bytes := texts.flatMap lineBytes

/-- All commands that set the module up have been sent. -/
def Phase.IsSetUp : Phase → Prop
  | .probing _ => False
  | .settingUp left => left = []
  | .starting _ | .sending _ _ | .failed _ => True

/-- **What was sent before a phase**, from the first probe to the last command that sets the module up. -/
inductive Opened : Phase → Bytes → Prop
  | probing {left : Nat} (atMost : left ≤ 5) : Opened (.probing left) (probes (5 - left))
  | settingUp {n : Nat} {done left : List String} (once : 1 ≤ n) (atMost : n ≤ 5)
      (inTurn : done ++ left = setUpCommands) : Opened (.settingUp left) (probes n ++ lines done)
  | setUp {p : Phase} {w : Bytes} {n : Nat} (isSetUp : p.IsSetUp) (once : 1 ≤ n) (atMost : n ≤ 5)
      (sent : probes n ++ lines setUpCommands <+: w) : Opened p w

/-- The module is set up once. -/
theorem turn_isSetUp {p q : Phase} {es : List LinkEvent} (turn : order.Turn p es q) (h : p.IsSetUp) :
    q.IsSetUp := by
  cases turn with
  | told hturn => cases hturn with
    | setUp => cases h
    | start => trivial
    | close => trivial
  | answered hturn => cases hturn with
    | probe => exact h.elim
    | join => trivial
    | send => trivial
    | payload => trivial
  | unanswered hturn => cases hturn with
    | probe => exact h.elim
    | join => rfl
    | send => trivial
    | payload => trivial

theorem lines_concat (texts : List String) (text : String) :
    lines (texts ++ [text]) = lines texts ++ lineBytes text := by
  unfold lines
  rw [List.flatMap_append, List.flatMap_singleton]

/-- **Each turn sends what is due next.** -/
theorem Opened.turn {p q : Phase} {w : Bytes} {es : List LinkEvent} (h : Opened p w)
    (turn : order.Turn p es q) : Opened q (w ++ sentBytes es) := by
  cases h with
  | setUp isSetUp once atMost sent =>
    exact .setUp (turn_isSetUp turn isSetUp) once atMost (sent.trans (List.prefix_append _ _))
  | probing atMost =>
    cases turn with
    | told hturn => cases hturn
    | answered hturn => cases hturn with
      | @probe left =>
        rw [sentBytes_exchange, probes_left atMost, ← List.append_nil (probes _)]
        show Opened _ (probes (5 - left) ++ lines [])
        exact .settingUp (by omega) (by omega) rfl
    | unanswered hturn => cases hturn with
      | @probe left =>
        rw [sentBytes_unanswered, probes_left atMost]
        exact .probing (by omega)
  | @settingUp n done left once atMost inTurn =>
    -- joining comes after the last command
    have joining {w : Bytes} {q : Phase} (hleft : left = []) (hq : q.IsSetUp) :
        Opened q (probes n ++ lines done ++ w) := by
      rw [hleft, List.append_nil] at inTurn
      rw [inTurn]
      exact .setUp hq once atMost (List.prefix_append _ _)
    cases turn with
    | told hturn => cases hturn with
      | @setUp text left =>
        rw [sentBytes_send, List.append_assoc, ← lines_concat]
        exact .settingUp once atMost (by rw [List.append_assoc]; exact inTurn)
    | answered hturn => cases hturn with
      | join => exact joining rfl trivial
    | unanswered hturn => cases hturn with
      | join => exact joining rfl rfl

theorem opened_of_leads {es : List LinkEvent} {p : Phase} (h : order.Leads es p) :
    Opened p (sentBytes es) := by
  induction h with
  | start => exact .probing (Nat.le_refl 5)
  | quiet _ quiet ih =>
    rw [sentBytes_append, sentBytes_eq_nil quiet, List.append_nil]
    exact ih
  | turn _ turn ih =>
    rw [sentBytes_append]
    exact ih.turn turn

/-- **What is sent begins with one to five probes and then the commands that set the module up**, each of
them whole, as far as it goes. -/
theorem sentBytes_opening {es : List LinkEvent} (h : order.InOrder es) :
    ∃ n, 1 ≤ n ∧ n ≤ 5 ∧ (sentBytes es <+: probes n ++ lines setUpCommands ∨
      probes n ++ lines setUpCommands <+: sentBytes es) := by
  obtain ⟨more, p, leads⟩ := h
  have hopened := opened_of_leads leads
  rw [sentBytes_append] at hopened
  have hes : sentBytes es <+: sentBytes es ++ sentBytes more := List.prefix_append _ _
  generalize sentBytes es ++ sentBytes more = w at hopened hes
  cases hopened with
  | @probing left =>
    have hprobes := probes_mono (Nat.sub_le 5 left)
    exact ⟨5, by omega, Nat.le_refl 5, .inl ((hes.trans hprobes).trans (List.prefix_append _ _))⟩
  | @settingUp n done left once atMost inTurn =>
    have hdone : lines done <+: lines setUpCommands := by
      rw [← inTurn]
      unfold lines
      rw [List.flatMap_append]
      exact List.prefix_append _ _
    exact ⟨n, once, atMost, .inl (hes.trans ((List.prefix_append_right_inj _).2 hdone))⟩
  | setUp _ once atMost sent =>
    exact ⟨_, once, atMost, List.prefix_or_prefix_of_prefix hes sent⟩

end EspWifi.Firmware
