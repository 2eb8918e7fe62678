import EspWifi.Modem.Query
import EspWifi.Modem.Traffic
import EspWifi.Proofs.Modem.Parameters
import EspWifi.Proofs.Modem.Script
import EspWifi.Proofs.Session.Line

/-!
# Text of the caller in commands

Five operations put text of their caller into a command: joining a network, starting an access point,
opening a link, a ping and a datagram.

* `TextOperation`, `Order`: these operations, and the commands they consist of.
* `TextOperation.sends_script`: **each of them sends its commands in order.**
* `TextOperation.sent_of_tooLong`: what was sent of an operation that is refused for its length.
* `TextOperation.sent_commands`: which commands of an operation say what the caller meant.
-/

namespace EspWifi

open Run Engine

/-- The operations that put text of the caller into a command. -/
inductive TextOperation where
  | join (ssid pass : String)
  | openAccessPoint (ssid pass : String) (channel : UInt8) (encryption : Encryption) (mode : WifiMode)
  | openLink (host : String) (port : UInt16) (link : UInt8) (transport : Transport)
  | ping (host : String)
  | sendDatagram (link : UInt8) (host : String) (port : UInt16) (data : Bytes)

/-- A command of an operation. -/
structure Order where
  directive : Directive
  /-- Does the operation end if the command fails? -/
  isNeeded : Bool := true

namespace TextOperation

variable {σ : Type} [Device σ] {L : Ledger σ}

/-- Carry out an operation. -/
def perform : TextOperation → Attempt (Driver σ) Unit
  | join ssid pass => Driver.join ssid pass
  | openAccessPoint ssid pass channel encryption mode =>
    Driver.openAccessPoint ssid pass channel encryption mode
  | openLink host port link transport => Driver.openLink host port link transport
  | ping host => Driver.ping host
  | sendDatagram link host port data => Driver.sendDatagram link host port data

/-- The texts that the caller passed. -/
def texts : TextOperation → List String
  | join ssid pass => [ssid, pass]
  | openAccessPoint ssid pass _ _ _ => [ssid, pass]
  | openLink host _ _ _ => [host]
  | ping host => [host]
  | sendDatagram _ host _ _ => [host]

/-- How an operation prints them. -/
def quoting : TextOperation → Quoting
  | join .. | openAccessPoint .. | ping .. => .escaped
  | openLink .. | sendDatagram .. => .raw

/-- **The commands of an operation**, with the parameters they are meant to have. -/
def orders : TextOperation → List Order
  | join ssid pass =>
    [{ directive := { name := "AT+CWJAP_CUR", first := .text ssid, others := [.text pass] } }]
  | openAccessPoint ssid pass channel encryption mode =>
    { directive := { name := "AT+CWMODE_CUR", first := .number mode.code } } ::
    { directive := { name := "AT+CWSAP_CUR", first := .text ssid, others :=
        [.text pass, .number channel.toNat, .number encryption.code] } } ::
    match mode with
    | .accessPoint =>
      [{ directive := { name := "AT+CWDHCP_CUR", first := .number 0, others := [.number 1] },
         isNeeded := false }]
    | .stationAndAccessPoint =>
      [{ directive := { name := "AT+CWDHCP_CUR", first := .number 2, others := [.number 1] },
         isNeeded := false }]
    | .station => []
  | openLink host port link .tcp =>
    [{ directive := { name := "AT+CIPSTART", first := .number link.toNat, others :=
        [.text "TCP", .text host, .number port.toNat] } }]
  | openLink host port link .ssl =>
    [{ directive := { name := "AT+CIPSSLSIZE", first := .number 4096 }, isNeeded := false },
     { directive := { name := "AT+CIPSTART", first := .number link.toNat, others :=
        [.text "SSL", .text host, .number port.toNat] } }]
  | openLink host port link .udp =>
    [{ directive := { name := "AT+CIPSTART", first := .number link.toNat, others :=
        [.text "UDP", .text host, .number 0, .number port.toNat, .number 2] } }]
  | ping host => [{ directive := { name := "AT+PING", first := .text host } }]
  | sendDatagram link host port data =>
    [{ directive := { name := "AT+CIPSEND", first := .number link.toNat, others :=
        [.number data.length, .text host, .number port.toNat] } }]

end TextOperation

/-- An order as a step. -/
def Order.step (q : Quoting) (o : Order) : Step :=
  if o.isNeeded then .required (o.directive.text q) else .optional (o.directive.text q)

namespace TextOperation

variable {σ : Type} [Device σ] {L : Ledger σ}

/-- What goes out after the commands. -/
def payload : TextOperation → List Step
  | sendDatagram _ _ _ data => [.payload data]
  | _ => []

/-- **The script of an operation.** -/
def steps (op : TextOperation) : List Step := op.orders.map (Order.step op.quoting) ++ op.payload

/-! ### Lines -/

theorem text_eq {q : Quoting} {d : Directive} {pieces : List String}
    (h : (String.join pieces).toList = d.chars q) : String.join pieces = d.text q := by
  rw [Directive.text, ← h, String.ofList_toList]

theorem text_join (ssid pass : String) :
    String.join (["AT+CWJAP_CUR="] ++ Driver.quoted ssid ++ [","] ++ Driver.quoted pass) =
      Directive.text .escaped { name := "AT+CWJAP_CUR", first := .text ssid, others := [.text pass] } :=
  text_eq (by simp [Directive.chars, Param.chars, Quoting.chars, Driver.quoted, escape])

theorem text_mode (mode : WifiMode) :
    String.join ["AT+CWMODE_CUR=", toString mode.code] =
      Directive.text .escaped { name := "AT+CWMODE_CUR", first := .number mode.code } := by
  cases mode <;> rfl

theorem text_accessPoint (ssid pass : String) (channel : UInt8) (encryption : Encryption) :
    String.join (["AT+CWSAP_CUR="] ++ Driver.quoted ssid ++ [","] ++ Driver.quoted pass ++
        [",", toString channel, ",", toString encryption.code]) =
      Directive.text .escaped { name := "AT+CWSAP_CUR", first := .text ssid, others :=
        [.text pass, .number channel.toNat, .number encryption.code] } :=
  text_eq (by
    simp [Directive.chars, Param.chars, Quoting.chars, Driver.quoted, escape, decimalDigits,
      toList_toString_byte])

theorem text_ping (host : String) :
    String.join (["AT+PING="] ++ Driver.quoted host) =
      Directive.text .escaped { name := "AT+PING", first := .text host } :=
  text_eq (by simp [Directive.chars, Param.chars, Quoting.chars, Driver.quoted, escape])

/-- The commands that open a link differ in the name of the transport and in what follows the host. -/
theorem text_openLink {start transport : String} {tail : List String} {others : List Param}
    (host : String) (link : UInt8)
    (hstart : start.toList = [',', '"'] ++ transport.toList ++ ['"', ',', '"'])
    (htail : tail.flatMap String.toList = '"' :: others.flatMap fun p => ',' :: p.chars .raw) :
    String.join (["AT+CIPSTART=", toString link] ++ start :: host :: tail) =
      Directive.text .raw { name := "AT+CIPSTART", first := .number link.toNat, others :=
        [.text transport, .text host] ++ others } :=
  text_eq (by
    simp [Directive.chars, Param.chars, Quoting.chars, decimalDigits, toList_toString_byte, hstart,
      htail])

theorem text_sendDatagram (host : String) (port : UInt16) (link : UInt8) (length : Nat) :
    String.join ["AT+CIPSEND=", toString link, ",", toString length, ",\"", host, "\",",
        toString port] =
      Directive.text .raw { name := "AT+CIPSEND", first := .number link.toNat, others :=
        [.number length, .text host, .number port.toNat] } :=
  text_eq (by
    simp [Directive.chars, Param.chars, Quoting.chars, decimalDigits, toList_toString_byte,
      toList_toString_word])

/-! ### Scripts -/

theorem sends_join (ssid pass : String) :
    Attempt.Sends L (Driver.join ssid pass : Attempt (Driver σ) Unit)
      (Script (join ssid pass).steps) := by
  show Attempt.Sends L _ (Script [.required (Directive.text .escaped _)])
  rw [← text_join]
  unfold Attempt.Sends Driver.join
  rw [ExceptT.run_mk]
  refine (Driver.quiet_record _ _).before fun _ => Driver.quiet_timeouts.before fun timeouts =>
    .bind (Driver.sends_command _ _) fun r w hw => ?_
  cases r with
  | ok _ =>
    refine (Driver.quiet_record _ _).before fun _ => .pure ?_
    rw [List.append_nil]
    exact .of_issued hw
  | error f =>
    refine (Driver.quiet_record _ _).before fun _ => (Driver.quiet_delay _).before fun _ =>
      (Driver.quiet_onEngine (quiet_drain _)).before fun _ => .pure ?_
    rw [List.append_nil]
    exact .of_issued hw

theorem sends_orWarn {x : Attempt (Driver σ) Unit} {warning : String}
    {P : Except Fault Unit → Bytes → Prop} (h : Attempt.Sends L x P) :
    Attempt.Sends L (Driver.orWarn x warning) P := by
  unfold Attempt.Sends Driver.orWarn
  rw [ExceptT.run_mk]
  refine .bind h fun r w hw => ?_
  cases r with
  | ok _ => exact .pure (by rwa [List.append_nil])
  | error f =>
    exact (Driver.quiet_record _ _).before fun _ => .pure (by rwa [List.append_nil])

theorem sends_openAccessPoint (ssid pass : String) (channel : UInt8) (encryption : Encryption)
    (mode : WifiMode) :
    Attempt.Sends L
      (Driver.openAccessPoint ssid pass channel encryption mode : Attempt (Driver σ) Unit)
      (Script (openAccessPoint ssid pass channel encryption mode).steps) := by
  have log : Attempt.Sends L
      (logInfo s!"Access point started {ssid}" : Attempt (Driver σ) Unit) (Script []) :=
    .lift (Driver.quiet_record _ _) fun _ => .done
  show Attempt.Sends L _ (Script (.required (Directive.text .escaped _) ::
    .required (Directive.text .escaped _) :: _))
  rw [← text_mode, ← text_accessPoint]
  unfold Driver.openAccessPoint
  refine Driver.sends_logged (.after Driver.quiet_timeouts fun timeouts =>
    Script.sends_required (sends_orWarn (Driver.sends_command _ _)) ?_)
  refine Script.sends_required (sends_orWarn (Driver.sends_command _ _)) ?_
  cases mode with
  | accessPoint => exact Script.sends_optional _ log
  | stationAndAccessPoint => exact Script.sends_optional _ log
  | station => exact log

theorem sends_openLink (host : String) (port : UInt16) (link : UInt8) (transport : Transport) :
    Attempt.Sends L (Driver.openLink host port link transport : Attempt (Driver σ) Unit)
      (Script (openLink host port link transport).steps) := by
  unfold Driver.openLink
  refine Driver.sends_logged (.after Driver.quiet_timeouts fun timeouts => ?_)
  have command {pieces : List String} {d : Directive}
      (h : String.join pieces = d.text .raw) (timeout : UInt32) :
      Attempt.Sends L (Driver.command pieces timeout : Attempt (Driver σ) Unit)
        (Script [.required (d.text .raw)]) := by
    rw [← h]
    exact (Driver.sends_command pieces timeout).mono fun _ _ => .of_issued
  cases transport with
  | tcp =>
    refine command (text_openLink host link (by rfl) ?_) _
    simp [Param.chars, decimalDigits, toList_toString_word]
  | ssl =>
    refine Script.sends_optional _ (command (text_openLink host link (by rfl) ?_) _)
    simp [Param.chars, decimalDigits, toList_toString_word]
  | udp =>
    have htwo : Nat.toDigits 10 2 = ['2'] := rfl
    refine command (text_openLink host link (by rfl) ?_) _
    simp [Param.chars, decimalDigits, toList_toString_word, htwo]

theorem sends_ping (host : String) :
    Attempt.Sends L (Driver.ping host : Attempt (Driver σ) Unit) (Script (ping host).steps) := by
  show Attempt.Sends L _ (Script [.required (Directive.text .escaped _)])
  rw [← text_ping]
  unfold Driver.ping
  refine Driver.sends_logged (.after Driver.quiet_timeouts fun timeouts => ?_)
  exact (Driver.sends_command _ _).mono fun _ _ => .of_issued

theorem sends_sendDatagram (link : UInt8) (host : String) (port : UInt16) (data : Bytes) :
    Attempt.Sends L (Driver.sendDatagram link host port data : Attempt (Driver σ) Unit)
      (Script (sendDatagram link host port data).steps) := by
  show Attempt.Sends L _ (Script [.required (Directive.text .raw _), .payload data])
  rw [← text_sendDatagram]
  unfold Driver.sendDatagram
  refine Driver.sends_logged (Script.sends_required (Driver.sends_announce _) ?_)
  exact (Driver.sends_payload data).mono fun _ _ => .of_carried

/-- **Every operation keeps to its script.** -/
theorem sends_script (op : TextOperation) :
    Attempt.Sends L (op.perform : Attempt (Driver σ) Unit) (Script op.steps) := by
  cases op with
  | join ssid pass => exact sends_join ssid pass
  | openAccessPoint ssid pass channel encryption mode =>
    exact sends_openAccessPoint ssid pass channel encryption mode
  | openLink host port link transport => exact sends_openLink host port link transport
  | ping host => exact sends_ping host
  | sendDatagram link host port data => exact sends_sendDatagram link host port data

variable {op : TextOperation} {d d' : Driver σ}

/-- What was sent when an operation returned. -/
theorem exists_sent {r : Except Fault Unit} (h : op.perform.run d = .ok r d') :
    ∃ w, L.Sent d d' w ∧ Script op.steps r w :=
  wp_of_ok (sends_script op d) h

/-! ### Operations that are refused -/

/-- **What was sent of an operation that is refused for the length of a command.** -/
theorem sent_of_tooLong (h : op.perform.run d = .ok (.error .commandTooLong) d') :
    ∃ w, L.Sent d d' w ∧
      match op with
      | .openAccessPoint _ _ _ _ mode => w = utf8 ("AT+CWMODE_CUR=" ++ toString mode.code ++ lineEnd)
      | .openLink _ _ _ .ssl => w <+: utf8 ("AT+CIPSSLSIZE=4096" ++ lineEnd)
      | _ => w = [] := by
  obtain ⟨w, hw, hscript⟩ := exists_sent h
  refine ⟨w, hw, ?_⟩
  cases op with
  | join ssid pass => exact hscript.eq_nil_of_tooLong (by simp [payload])
  | ping host => exact hscript.eq_nil_of_tooLong (by simp [payload])
  | sendDatagram link host port data => exact hscript.eq_nil_of_tooLong (by simp [payload])
  | openAccessPoint ssid pass channel encryption mode =>
    have hmode : String.join ["AT+CWMODE_CUR=", toString mode.code] =
        "AT+CWMODE_CUR=" ++ toString mode.code := by cases mode <;> rfl
    have hfits : ("AT+CWMODE_CUR=" ++ toString mode.code).utf8ByteSize ≤ commandLimit := by
      cases mode <;> decide
    have hscript : Script (.required (Directive.text .escaped _) :: _) _ w := hscript
    rw [← text_mode, hmode] at hscript
    obtain ⟨w, rfl, hrest⟩ := hscript.exists_of_fits hfits
    have hw : w = [] := hrest.eq_nil_of_tooLong (by cases mode <;> simp [payload, Order.step])
    rw [hw, List.append_nil]
  | openLink host port link transport =>
    cases transport with
    | tcp => exact hscript.eq_nil_of_tooLong (by simp [payload])
    | udp => exact hscript.eq_nil_of_tooLong (by simp [payload])
    | ssl =>
      cases hscript with
      | @passed _ _ _ _ w w' sent rest =>
        obtain rfl : w' = [] := rest.eq_nil_of_tooLong (by simp [payload])
        rw [List.append_nil]
        exact sent.isPrefix

/-- A network name that makes its command too long. -/
def longName : String := String.ofList (List.replicate 200 'n')

/-- A driver whose module answers one command. -/
def answersOnce : Driver Bench where
  engine := { device := { replies := [[(0, utf8 "\r\nOK\r\n")]] } }

theorem long_name_refused :
    ∃ d', (openAccessPoint longName "" 1 .none .accessPoint).perform.run answersOnce =
        .ok (.error .commandTooLong) d' ∧
      ∃ w, Bench.ledger.Sent answersOnce d' w ∧ w = utf8 "AT+CWMODE_CUR=2\r\n" := by
  obtain ⟨d', h⟩ : ∃ d', (openAccessPoint longName "" 1 .none .accessPoint).perform.run answersOnce =
      .ok (.error .commandTooLong) d' := value?_eq_some.1 (by decide +kernel)
  exact ⟨d', h, sent_of_tooLong h⟩

/-- **An access point with a long name is refused after the mode was set.** -/
theorem mode_sent_before_refusal :
    value? (do
      let r ← (openAccessPoint longName "" 1 .none .accessPoint).perform.run
      return (r, (← get).engine.device.sent)) answersOnce =
      some (.error .commandTooLong, utf8 "AT+CWMODE_CUR=2\r\n") := by
  decide +kernel

/-! ### What the module reads -/

/-- The texts in the commands are those of the caller, and the names of the transports. -/
theorem forall_text_iff {P : String → Prop} (tcp : P "TCP") (ssl : P "SSL") (udp : P "UDP") :
    (∀ o ∈ op.orders, ∀ s, .text s ∈ o.directive.params → P s) ↔ ∀ s ∈ op.texts, P s := by
  cases op with
  | join ssid pass => simp [orders, texts, Directive.params]
  | ping host => simp [orders, texts, Directive.params]
  | sendDatagram link host port data => simp [orders, texts, Directive.params]
  | openAccessPoint ssid pass channel encryption mode =>
    cases mode <;> simp [orders, texts, Directive.params]
  | openLink host port link transport =>
    cases transport <;> simp [orders, texts, Directive.params, tcp, ssl, udp]

/-- **Which commands say what the caller meant.** An operation sends a beginning of each of its steps, and
if it succeeds all of its needed commands and its payload in full. Its commands are lines, with the line
end at the end and nowhere else, exactly if no text of the caller has a line end in it. Read back, they
have their own parameters exactly if the operation escapes its texts, or if these have no quotes and no
backslashes. -/
theorem sent_commands {r : Except Fault Unit} (h : op.perform.run d = .ok r d') :
    (∃ parts : List Bytes, L.Sent d d' parts.flatten ∧
      List.Forall₂ (fun part step => part <+: step.bytes) parts (op.steps.take parts.length) ∧
      (r = .ok () →
        List.Forall₂ (fun part step => step.IsNeeded → part = step.bytes) parts op.steps)) ∧
    ((∀ o ∈ op.orders, IsLine (o.directive.line op.quoting)) ↔
      ∀ s ∈ op.texts, ¬ lineEnd.toList <:+: s.toList) ∧
    ((∀ o ∈ op.orders, Directive.read? (o.directive.line op.quoting) = some o.directive) ↔
      ∀ s ∈ op.texts, op.quoting.Allows s) := by
  refine ⟨?_, ?_, ?_⟩
  · obtain ⟨w, hw, hscript⟩ := exists_sent h
    obtain ⟨parts, rfl, hparts⟩ := hscript.exists_parts
    exact ⟨parts, hw, hparts⟩
  · simp only [Directive.isLine_line]
    exact forall_text_iff (by decide) (by decide) (by decide)
  · simp only [Directive.read?_line]
    have hnames : ∀ s ∈ ["TCP", "SSL", "UDP"], op.quoting.Allows s := by
      generalize op.quoting = q
      cases q <;> decide
    exact forall_text_iff (hnames _ (by simp)) (hnames _ (by simp)) (hnames _ (by simp))

/-- A link to a host with a quote in its name. -/
def quotedHost : TextOperation := openLink "a\"b" 80 0 .tcp

theorem quoted_host_sent :
    ∃ d', quotedHost.perform.run answersOnce = .ok (.ok ()) d' ∧
      (∃ parts : List Bytes, Bench.ledger.Sent answersOnce d' parts.flatten ∧
        List.Forall₂ (fun part step => step.IsNeeded → part = step.bytes) parts quotedHost.steps) ∧
      (∀ o ∈ quotedHost.orders, IsLine (o.directive.line .raw)) ∧
      ¬ ∀ o ∈ quotedHost.orders, Directive.read? (o.directive.line .raw) = some o.directive := by
  obtain ⟨d', h⟩ : ∃ d', quotedHost.perform.run answersOnce = .ok (.ok ()) d' :=
    value?_eq_some.1 (by decide +kernel)
  obtain ⟨⟨parts, hsent, -, hall⟩, hline, hread⟩ := sent_commands (L := Bench.ledger) h
  refine ⟨d', h, ⟨parts, hsent, hall rfl⟩, hline.2 (by decide), fun hfaithful => ?_⟩
  have hallows := hread.1 hfaithful "a\"b" (by decide)
  revert hallows
  decide

/-- **A quote in the name of a host ends its parameter.** The link is opened with a command that does not
read back, while a ping of the same host sends one that does. -/
theorem quote_ends_host :
    ([quotedHost, .ping "a\"b"].map fun op => value? (do
      let r ← op.perform.run
      let sent := (← get).engine.device.sent
      return (r, sent, Directive.read? sent)) answersOnce) =
      [some (.ok (), utf8 "AT+CIPSTART=0,\"TCP\",\"a\"b\",80\r\n", none),
        some (.ok (), utf8 "AT+PING=\"a\\\"b\"\r\n",
          some { name := "AT+PING", first := .text "a\"b" })] := by
  decide +kernel

end TextOperation

end EspWifi
