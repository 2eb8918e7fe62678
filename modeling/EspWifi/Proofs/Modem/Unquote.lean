import EspWifi.Proofs.Modem.CallerText

/-!
# Taking a line apart at its quotes

The module finds the texts of a command line by its quotes alone. Inside them a backslash makes the next
character stand for itself, and the first quote without a backslash ends the text.

* `unquote`: the texts of a line, and what stands outside of them.
* `Directive.unquote_chars`: **a command whose texts are escaped comes apart into its texts and the rest**,
  whatever the texts are.
* `QuotedCommand`: the commands that are printed this way.
* `QuotedCommand.unquote_line`: their lines come apart into what the caller passed, so no two of them have
  the same line.
-/

namespace EspWifi

/-- A line, taken apart at its quotes. -/
structure Unquoted where
  /-- What stands outside the quotes. -/
  outside : List Char := []
  /-- What stands between them, text by text. -/
  texts : List String := []
  deriving DecidableEq

namespace Unquoted

/-- A line with more in front of it. -/
def after (cs : List Char) (u : Unquoted) : Unquoted := { u with outside := cs ++ u.outside }

/-- A line with one more text in front of it. -/
def afterText (s : String) (u : Unquoted) : Unquoted := { u with texts := s :: u.texts }

end Unquoted

mutual

/-- **Take a line apart at its quotes**, unless a text in it does not end. -/
def unquote : List Char → Option Unquoted
  | [] => some {}
  | c :: cs =>
    if c = '"' then (unquoteText cs).map fun r => r.2.afterText (String.ofList r.1)
    else (unquote cs).map (.after [c])

/-- The rest of a text, up to the quote that ends it, and what comes after that quote. -/
def unquoteText : List Char → Option (List Char × Unquoted)
  | [] => none
  | '"' :: cs => (unquote cs).map fun u => ([], u)
  | '\\' :: c :: cs => (unquoteText cs).map fun r => (c :: r.1, r.2)
  | c :: cs => (unquoteText cs).map fun r => (c :: r.1, r.2)

end

/-! ### Texts -/

theorem unquoteText_quote (cs : List Char) :
    unquoteText ('"' :: cs) = (unquote cs).map fun u => ([], u) := by
  rw [unquoteText]

theorem unquoteText_backslash (c : Char) (cs : List Char) :
    unquoteText ('\\' :: c :: cs) = (unquoteText cs).map fun r => (c :: r.1, r.2) := by
  rw [unquoteText]

theorem unquoteText_cons {c : Char} (hquote : c ≠ '"') (hslash : c ≠ '\\') (cs : List Char) :
    unquoteText (c :: cs) = (unquoteText cs).map fun r => (c :: r.1, r.2) := by
  rw [unquoteText]
  · exact hquote
  · rintro _ _ h -
    exact hslash h

/-- **An escaped text ends at the quote that was put after it.** -/
theorem unquoteText_escapeChars (cs tail : List Char) :
    unquoteText (escapeChars cs ++ '"' :: tail) = (unquote tail).map fun u => (cs, u) := by
  induction cs with
  | nil => exact unquoteText_quote tail
  | cons c cs ih =>
    by_cases hc : needsBackslash c = true
    · rw [escapeChars, if_pos hc, List.cons_append, List.cons_append, unquoteText_backslash, ih,
        Option.map_map]
      rfl
    · have hplain : c ≠ '"' ∧ c ≠ '\\' := by
        constructor <;> rintro rfl <;> exact hc rfl
      rw [escapeChars, if_neg hc, List.cons_append, unquoteText_cons hplain.1 hplain.2, ih,
        Option.map_map]
      rfl

/-- What has no quote in it stands outside the quotes. -/
theorem unquote_append {cs : List Char} (h : '"' ∉ cs) (tail : List Char) :
    unquote (cs ++ tail) = (unquote tail).map (.after cs) := by
  induction cs with
  | nil => exact Option.map_id'.symm
  | cons c cs ih =>
    simp only [List.mem_cons, not_or] at h
    rw [List.cons_append, unquote, if_neg (Ne.symm h.1), ih h.2, Option.map_map]
    rfl

/-! ### Parameters -/

namespace Param

/-- What a parameter leaves outside the quotes: the digits of a number. -/
def outside : Param → List Char
  | number n => decimalDigits n
  | text _ => []

/-- What stands between its quotes. -/
def texts : Param → List String
  | number _ => []
  | text s => [s]

theorem quote_not_mem_decimalDigits (n : Nat) : '"' ∉ decimalDigits n := by
  intro h
  cases isDigit_of_mem_decimalDigits h

/-- **A parameter comes apart into its text, or its digits.** -/
theorem unquote_chars (p : Param) (tail : List Char) :
    unquote (p.chars .escaped ++ tail) =
      (unquote tail).map fun u =>
        { outside := p.outside ++ u.outside, texts := p.texts ++ u.texts } := by
  cases p with
  | number n => exact unquote_append (quote_not_mem_decimalDigits n) tail
  | text s =>
    have hchars : (text s).chars .escaped ++ tail = '"' :: (escapeChars s.toList ++ '"' :: tail) := by
      simp [chars, Quoting.chars]
    rw [hchars, unquote, if_pos rfl, unquoteText_escapeChars, Option.map_map]
    simp [Function.comp_def, Unquoted.afterText, outside, texts]

/-- Parameters after a comma each. -/
theorem unquote_flatMap (ps : List Param) :
    unquote (ps.flatMap fun p => ',' :: p.chars .escaped) =
      some { outside := ps.flatMap fun p => ',' :: p.outside, texts := ps.flatMap texts } := by
  induction ps with
  | nil => rfl
  | cons p ps ih =>
    rw [List.flatMap_cons, List.cons_append, unquote, if_neg (by decide), unquote_chars, ih]
    cases p <;> simp [Unquoted.after, outside, texts]

end Param

/-- **A command whose texts are escaped comes apart into its texts and the rest of it.** -/
theorem Directive.unquote_chars (d : Directive) :
    unquote (d.chars .escaped) =
      some
        { outside :=
            d.name.toList ++ '=' :: (d.first.outside ++ d.others.flatMap fun p => ',' :: p.outside)
          texts := d.params.flatMap Param.texts } := by
  have hname : '"' ∉ d.name.toList ++ ['='] := by
    simp only [List.mem_append, List.mem_singleton, not_or]
    refine ⟨fun h => ?_, by decide⟩
    cases d.isNameChar_of_mem h
  have hchars : d.chars .escaped = (d.name.toList ++ ['=']) ++
      (d.first.chars .escaped ++ d.others.flatMap fun p => ',' :: p.chars .escaped) := by
    simp [chars]
  rw [hchars, unquote_append hname, Param.unquote_chars, Param.unquote_flatMap]
  cases hfirst : d.first <;> simp [Unquoted.after, params, Param.texts, hfirst]

/-- Escaped texts keep commands apart: a command can be read off its line. -/
theorem Directive.text_escaped_injective : Function.Injective (text .escaped) := by
  intro d d' h
  have hline : d.line .escaped = d'.line .escaped := by rw [line, h, line]
  have hread (d : Directive) : read? (d.line .escaped) = some d :=
    read?_line.2 fun _ _ => trivial
  rw [← Option.some_inj, ← hread d, hline, hread d']

/-! ### Commands -/

/-- The commands that print text of the caller with escapes: joining a network, starting an access point
and a ping. -/
inductive QuotedCommand where
  | join (ssid pass : String)
  | accessPoint (ssid pass : String) (channel : UInt8) (encryption : Encryption)
  | ping (host : String)
  deriving DecidableEq

namespace QuotedCommand

/-- The pieces that a command is formatted from. -/
def pieces : QuotedCommand → List String
  | join ssid pass => ["AT+CWJAP_CUR="] ++ Driver.quoted ssid ++ [","] ++ Driver.quoted pass
  | accessPoint ssid pass channel encryption =>
    ["AT+CWSAP_CUR="] ++ Driver.quoted ssid ++ [","] ++ Driver.quoted pass ++
      [",", toString channel, ",", toString encryption.code]
  | ping host => ["AT+PING="] ++ Driver.quoted host

/-- The line of a command. -/
def line (c : QuotedCommand) : String := String.join c.pieces

/-- The operation that sends a command. -/
def operation (mode : WifiMode) : QuotedCommand → TextOperation
  | join ssid pass => .join ssid pass
  | accessPoint ssid pass channel encryption => .openAccessPoint ssid pass channel encryption mode
  | ping host => .ping host

/-- The texts that the caller passed. -/
def texts : QuotedCommand → List String
  | join ssid pass => [ssid, pass]
  | accessPoint ssid pass _ _ => [ssid, pass]
  | ping host => [host]

/-- What a line says outside its quotes. -/
def outside : QuotedCommand → String
  | join _ _ => "AT+CWJAP_CUR=" ++ ","
  | accessPoint _ _ channel encryption =>
    "AT+CWSAP_CUR=" ++ "," ++ "," ++ toString channel ++ "," ++ toString encryption.code
  | ping _ => "AT+PING="

/-- The name of a command. -/
def name : QuotedCommand → String
  | join _ _ => "AT+CWJAP_CUR"
  | accessPoint _ _ _ _ => "AT+CWSAP_CUR"
  | ping _ => "AT+PING"

theorem isName_name (c : QuotedCommand) : IsName c.name := by
  cases c <;> rw [name] <;> decide

/-- The parameters of a command. -/
def params : QuotedCommand → Param × List Param
  | join ssid pass => (.text ssid, [.text pass])
  | accessPoint ssid pass channel encryption =>
    (.text ssid, [.text pass, .number channel.toNat, .number encryption.code])
  | ping host => (.text host, [])

/-- A command with its parameters. -/
def directive (c : QuotedCommand) : Directive where
  name := c.name
  named := c.isName_name
  first := c.params.1
  others := c.params.2

theorem line_eq (c : QuotedCommand) : c.line = c.directive.text .escaped := by
  cases c with
  | join ssid pass => exact TextOperation.text_join ssid pass
  | accessPoint ssid pass channel encryption =>
    exact TextOperation.text_accessPoint ssid pass channel encryption
  | ping host => exact TextOperation.text_ping host

/-- **The line of a command is among those that its operation sends.** -/
theorem line_mem_steps (c : QuotedCommand) (mode : WifiMode) :
    Step.required c.line ∈ (c.operation mode).steps := by
  rw [line_eq]
  cases c with
  | join ssid pass => exact List.mem_append_left _ List.mem_cons_self
  | accessPoint ssid pass channel encryption =>
    -- the mode is set before the access point is
    exact List.mem_append_left _ (List.mem_cons_of_mem _ List.mem_cons_self)
  | ping host => exact List.mem_append_left _ List.mem_cons_self

theorem texts_eq (c : QuotedCommand) : c.texts = c.directive.params.flatMap Param.texts := by
  cases c <;> rfl

theorem outside_toList (c : QuotedCommand) :
    c.outside.toList = c.directive.name.toList ++ '=' :: (c.directive.first.outside ++
      c.directive.others.flatMap fun p => ',' :: p.outside) := by
  cases c with
  | join ssid pass =>
    have hname : ("AT+CWJAP_CUR=" ++ ",").toList = "AT+CWJAP_CUR".toList ++ ['=', ','] := by decide
    exact hname
  | accessPoint ssid pass channel encryption =>
    -- for any two numbers: a search for those of the command would evaluate the texts beside them
    have hall {a b : String} {x y : List Char} (ha : a.toList = x) (hb : b.toList = y) :
        ("AT+CWSAP_CUR=" ++ "," ++ "," ++ a ++ "," ++ b).toList =
          "AT+CWSAP_CUR".toList ++ ('=' :: ',' :: ',' :: (x ++ (',' :: (y ++ [])))) := by
      simp [ha, hb]
    exact hall (toList_toString_byte channel) (toList_toString encryption.code)
  | ping host =>
    have hname : "AT+PING=".toList = "AT+PING".toList ++ ['='] := by decide
    exact hname

/-- The parameters say what the caller passed. -/
theorem directive_injective : Function.Injective directive := by
  intro c c' h
  cases c <;> cases c' <;> simp only [directive, name, params, Directive.mk.injEq, reduceCtorEq,
    and_false, String.reduceEq, Param.text.injEq, Param.number.injEq, List.cons.injEq,
    and_true, true_and] at h
  case join.join => rw [h.1, h.2]
  case accessPoint.accessPoint =>
    obtain ⟨rfl, rfl, hchannel, hencryption⟩ := h
    have hcode := Encryption.ofCode?_eq_some_iff.2 hencryption
    rw [Encryption.ofCode?_eq_some_iff.2 rfl] at hcode
    rw [UInt8.toNat_inj.1 hchannel, Option.some.inj hcode]
  case ping.ping => rw [h]

variable {σ : Type} [Device σ]

/-- **The lines that text of the caller is printed into come apart into what the caller passed.** Each is
among the lines that its operation sends. Between its quotes stand the texts, outside of them its name
and the digits of the numbers, with the commas. So no two commands have the same line. -/
theorem unquote_line (L : Ledger σ) :
    (∀ (c : QuotedCommand) (mode : WifiMode),
      Attempt.Sends L (c.operation mode).perform (Script (c.operation mode).steps) ∧
        .required c.line ∈ (c.operation mode).steps) ∧
    (∀ c : QuotedCommand,
      unquote c.line.toList = some { outside := c.outside.toList, texts := c.texts }) ∧
    Function.Injective line := by
  refine ⟨fun c mode => ⟨TextOperation.sends_script _, c.line_mem_steps mode⟩, fun c => ?_, ?_⟩
  · rw [line_eq, Directive.text, String.toList_ofList, Directive.unquote_chars, outside_toList,
      texts_eq]
  · intro c c' h
    rw [line_eq, line_eq] at h
    exact directive_injective (Directive.text_escaped_injective h)

example : unquote "AT+CWJAP_CUR=\"a\\\",\\\"b\\\\\",\"\"".toList =
    some { outside := "AT+CWJAP_CUR=,".toList, texts := ["a\",\"b\\", ""] } := by
  decide +kernel

end QuotedCommand

end EspWifi
