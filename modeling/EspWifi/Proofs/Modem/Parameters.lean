import EspWifi.Modem.Quoted
import EspWifi.Proofs.Text.LineEnds
import Mathlib.Data.List.Induction

/-!
# Commands and their parameters

A command is a name and parameters: numbers, and texts between double quotes. The module reads a
character of a text for what it is if a backslash comes before it; so text of the caller reads back as it
was if its quotes and backslashes are escaped, or if it has none.

* `Param`, `Directive`, `Quoting`: commands with parameters, and the two ways to print a text.
* `readParams`, `Directive.read?`: **the grammar of parameters**, as a reader.
* `Directive.read?_line`: **a printed command reads back exactly if its texts may be printed that way.**
* `Directive.isLine_line`: it is one line exactly if no text has a line end in it.
-/

namespace EspWifi

/-- A parameter of a command. -/
inductive Param where
  | number (n : Nat)
  | text (s : String)
  deriving DecidableEq

/-- The characters of a name. -/
def isNameChar (c : Char) : Bool := c.isAlphanum || c == '+' || c == '_'

/-- A name of a command. -/
def IsName (s : String) : Prop := s.toList.all isNameChar = true

instance (s : String) : Decidable (IsName s) := instDecidableEqBool _ true

/-- A command with at least one parameter. -/
structure Directive where
  name : String
  named : IsName name := by decide
  first : Param
  others : List Param := []
  deriving DecidableEq

def Directive.params (d : Directive) : List Param := d.first :: d.others

/-! ### Printing -/

/-- How a text stands between its quotes. -/
inductive Quoting where
  | escaped
  | raw
  deriving DecidableEq

namespace Quoting

def chars : Quoting → String → List Char
  | escaped, s => escapeChars s.toList
  | raw, s => s.toList

/-- **The texts that may be printed this way**: any text if it is escaped, and else those without a quote
and without a backslash. -/
def Allows : Quoting → String → Prop
  | escaped, _ => True
  | raw, s => '"' ∉ s.toList ∧ '\\' ∉ s.toList

instance (q : Quoting) (s : String) : Decidable (q.Allows s) := by
  cases q <;> unfold Allows <;> infer_instance

end Quoting

/-- A number may be printed either way. -/
def Quoting.AllowsParam (q : Quoting) : Param → Prop
  | .number _ => True
  | .text s => q.Allows s

theorem Quoting.allowsParam_iff {q : Quoting} {ps : List Param} :
    (∀ p ∈ ps, q.AllowsParam p) ↔ ∀ s, .text s ∈ ps → q.Allows s := by
  constructor
  · intro h s hs
    exact h _ hs
  · intro h p hp
    cases p with
    | number n => trivial
    | text s => exact h s hp

def Param.chars (q : Quoting) : Param → List Char
  | number n => decimalDigits n
  | text s => '"' :: q.chars s ++ ['"']

namespace Directive

def chars (q : Quoting) (d : Directive) : List Char :=
  d.name.toList ++ '=' :: (d.first.chars q ++ d.others.flatMap fun p => ',' :: p.chars q)

/-- The text of a command. -/
def text (q : Quoting) (d : Directive) : String := String.ofList (d.chars q)

/-- A command as it goes over the wire. -/
def line (q : Quoting) (d : Directive) : Bytes := utf8 (d.text q ++ lineEnd)

end Directive

/-! ### Reading -/

mutual

/-- Read parameters, of which there has to be one. -/
def readParams : List Char → Option (List Param)
  | [] => none
  | c :: cs =>
    if c = '"' then (readText cs).map fun r => .text (String.ofList r.1) :: r.2
    else if c.isDigit then readNumber (c.toNat - '0'.toNat) cs
    else none

/-- Read the rest of a text, and the parameters after it. -/
def readText : List Char → Option (List Char × List Param)
  | [] => none
  | '"' :: cs => (readOthers cs).map fun ps => ([], ps)
  | '\\' :: c :: cs => (readText cs).map fun r => (c :: r.1, r.2)
  | c :: cs => (readText cs).map fun r => (c :: r.1, r.2)

/-- Read the digits that follow a number, and the parameters after it. -/
def readNumber (n : Nat) : List Char → Option (List Param)
  | [] => some [.number n]
  | c :: cs =>
    if c.isDigit then readNumber (10 * n + (c.toNat - '0'.toNat)) cs
    else if c = ',' then (readParams cs).map (.number n :: ·)
    else none

/-- Read what follows a text: nothing, or a comma and more parameters. -/
def readOthers : List Char → Option (List Param)
  | [] => some []
  | c :: cs => if c = ',' then readParams cs else none

end

/-- A line without its end. -/
def dropLineEnd (cs : List Char) : Option (List Char) :=
  if lineEnd.toList.isSuffixOf cs then some (cs.take (cs.length - 2)) else none

/-- **Read a command off the wire**: a line with a name, an equals sign and parameters. -/
def Directive.read? (b : Bytes) : Option Directive := do
  let body ← dropLineEnd (← text? b).toList
  let name := String.ofList (body.takeWhile (· ≠ '='))
  let params ← readParams (body.dropWhile (· ≠ '=')).tail
  if named : IsName name then
    match params with
    | [] => none
    | first :: others => some { name, named, first, others }
  else none

/-! ### Texts -/

theorem readText_quote (cs : List Char) :
    readText ('"' :: cs) = (readOthers cs).map fun ps => ([], ps) := by
  rw [readText]

theorem readText_backslash (c : Char) (cs : List Char) :
    readText ('\\' :: c :: cs) = (readText cs).map fun r => (c :: r.1, r.2) := by
  rw [readText]

theorem readText_cons {c : Char} (hquote : c ≠ '"') (hslash : c ≠ '\\') (cs : List Char) :
    readText (c :: cs) = (readText cs).map fun r => (c :: r.1, r.2) := by
  rw [readText]
  · exact hquote
  · rintro _ _ h -
    exact hslash h

/-- **An escaped text reads back as it was.** -/
theorem readText_escapeChars (cs tail : List Char) :
    readText (escapeChars cs ++ '"' :: tail) = (readOthers tail).map fun ps => (cs, ps) := by
  induction cs with
  | nil => exact readText_quote tail
  | cons c cs ih =>
    by_cases hc : needsBackslash c = true
    · rw [escapeChars, if_pos hc, List.cons_append, List.cons_append, readText_backslash, ih,
        Option.map_map]
      rfl
    · have hplain : c ≠ '"' ∧ c ≠ '\\' := by
        constructor <;> rintro rfl <;> exact hc rfl
      rw [escapeChars, if_neg hc, List.cons_append, readText_cons hplain.1 hplain.2, ih,
        Option.map_map]
      rfl

/-- A text without quotes and backslashes reads back as it was. -/
theorem readText_plain {cs : List Char} (hquote : '"' ∉ cs) (hslash : '\\' ∉ cs) (tail : List Char) :
    readText (cs ++ '"' :: tail) = (readOthers tail).map fun ps => (cs, ps) := by
  induction cs with
  | nil => exact readText_quote tail
  | cons c cs ih =>
    simp only [List.mem_cons, not_or] at hquote hslash
    rw [List.cons_append, readText_cons (Ne.symm hquote.1) (Ne.symm hslash.1),
      ih hquote.2 hslash.2, Option.map_map]
    rfl

/-- A backslash at the beginning of what is read stands for two of them. -/
theorem exists_of_readText_backslash {cs v : List Char} {ps : List Param}
    (h : readText cs = some ('\\' :: v, ps)) :
    ∃ cs', cs = '\\' :: '\\' :: cs' ∧ readText cs' = some (v, ps) := by
  cases cs with
  | nil =>
    rw [readText] at h
    cases h
  | cons c cs =>
    by_cases hquote : c = '"'
    · rw [hquote, readText_quote] at h
      obtain ⟨_, -, heq⟩ := Option.map_eq_some_iff.1 h
      cases heq
    by_cases hslash : c = '\\'
    · subst hslash
      cases cs with
      | nil =>
        rw [readText, readText] at h
        · cases h
        · simp
        · simp
      | cons d cs =>
        rw [readText_backslash] at h
        obtain ⟨r, hr, heq⟩ := Option.map_eq_some_iff.1 h
        cases heq
        exact ⟨cs, rfl, hr⟩
    · rw [readText_cons hquote hslash] at h
      obtain ⟨r, -, heq⟩ := Option.map_eq_some_iff.1 h
      cases heq
      exact absurd rfl hslash

/-- What is read before the closing quote never has backslashes that the text does not have. -/
theorem readText_ne_replicate (k : Nat) (cs tail : List Char) (ps : List Param) :
    readText (cs ++ '"' :: tail) ≠ some (List.replicate (k + 1) '\\' ++ cs, ps) := by
  induction cs using List.twoStepInduction generalizing k with
  | nil =>
    intro h
    obtain ⟨cs', heq, -⟩ := exists_of_readText_backslash h
    simp at heq
  | singleton c =>
    intro h
    obtain ⟨cs', heq, -⟩ := exists_of_readText_backslash h
    simp at heq
  | cons_cons c d cs ih _ =>
    intro h
    -- two backslashes of the text are read as one, so after them one more is missing
    obtain ⟨cs', heq, hrest⟩ := exists_of_readText_backslash h
    simp only [List.cons_append, List.cons.injEq] at heq
    obtain ⟨rfl, rfl, rfl⟩ := heq
    refine ih (k + 1) ?_
    rw [hrest, List.replicate_add k 2, List.append_assoc]
    rfl

/-- **A text that is printed as it is reads back only if it has no quote and no backslash.** -/
theorem plain_of_readText {cs tail : List Char} {ps : List Param}
    (h : readText (cs ++ '"' :: tail) = some (cs, ps)) : '"' ∉ cs ∧ '\\' ∉ cs := by
  induction cs with
  | nil => simp
  | cons c cs ih =>
    by_cases hquote : c = '"'
    · rw [hquote, List.cons_append, readText_quote] at h
      obtain ⟨_, -, heq⟩ := Option.map_eq_some_iff.1 h
      cases heq
    by_cases hslash : c = '\\'
    · subst hslash
      obtain ⟨cs', heq, hrest⟩ := exists_of_readText_backslash h
      cases cs with
      | nil => simp at heq
      | cons d cs =>
        simp only [List.cons_append, List.cons.injEq, true_and] at heq
        obtain ⟨rfl, rfl⟩ := heq
        exact absurd hrest (readText_ne_replicate 0 cs tail ps)
    · rw [List.cons_append, readText_cons hquote hslash] at h
      obtain ⟨⟨cs', ps'⟩, hr, heq⟩ := Option.map_eq_some_iff.1 h
      obtain ⟨rfl, rfl⟩ : cs' = cs ∧ ps' = ps := by simpa using heq
      obtain ⟨hq, hb⟩ := ih hr
      simp [hq, hb, Ne.symm hquote, Ne.symm hslash]

/-- **What is read of a printed text is the text exactly if it may be printed that way.** -/
theorem readText_chars (q : Quoting) (s : String) (tail : List Char) (ps : List Param) :
    readText (q.chars s ++ '"' :: tail) = some (s.toList, ps) ↔
      q.Allows s ∧ readOthers tail = some ps := by
  cases q with
  | escaped =>
    have hread := readText_escapeChars s.toList tail
    show readText (escapeChars s.toList ++ '"' :: tail) = _ ↔ True ∧ _
    rw [hread]
    simp
  | raw =>
    show readText (s.toList ++ '"' :: tail) = _ ↔ ('"' ∉ s.toList ∧ '\\' ∉ s.toList) ∧ _
    constructor
    · intro h
      have hplain := plain_of_readText h
      rw [readText_plain hplain.1 hplain.2] at h
      exact ⟨hplain, by simpa using h⟩
    · rintro ⟨hplain, htail⟩
      rw [readText_plain hplain.1 hplain.2, htail]
      rfl

/-! ### Parameters -/

/-- After the digits of a number comes what comes after a text. -/
theorem readNumber_append {ds tail : List Char} (hds : ∀ c ∈ ds, c.isDigit = true)
    (htail : ∀ c ∈ tail.head?, c.isDigit = false) (n : Nat) :
    readNumber n (ds ++ tail) =
      (readOthers tail).map (.number (Nat.ofDigitChars 10 ds n) :: ·) := by
  induction ds generalizing n with
  | nil =>
    rw [List.nil_append, Nat.ofDigitChars_nil]
    cases tail with
    | nil => rfl
    | cons c tail =>
      have hc : c.isDigit = false := htail c (by simp)
      rw [readNumber, readOthers, hc]
      by_cases hcomma : c = ','
      · simp [hcomma]
      · simp [hcomma]
  | cons c ds ih =>
    have hc : c.isDigit = true := hds c (by simp)
    rw [List.cons_append, readNumber, if_pos hc, Nat.ofDigitChars_cons]
    exact ih (fun d hd => hds d (List.mem_cons_of_mem _ hd)) _

theorem readParams_number (n : Nat) {tail : List Char} (htail : ∀ c ∈ tail.head?, c.isDigit = false) :
    readParams (decimalDigits n ++ tail) = (readOthers tail).map (.number n :: ·) := by
  have hvalue : Nat.ofDigitChars 10 (decimalDigits n) 0 = n := Nat.ofDigitChars_ten_toDigits
  have hdigits : ∀ c ∈ decimalDigits n, c.isDigit = true := fun _ => isDigit_of_mem_decimalDigits
  cases hn : decimalDigits n with
  | nil => exact absurd hn (decimalDigits_ne_nil n)
  | cons c ds =>
    rw [hn] at hvalue hdigits
    have hc : c.isDigit = true := hdigits c (by simp)
    have hquote : c ≠ '"' := by
      rintro rfl
      cases hc
    rw [List.cons_append, readParams, if_neg hquote, if_pos hc,
      readNumber_append (fun d hd => hdigits d (List.mem_cons_of_mem _ hd)) htail]
    rw [Nat.ofDigitChars_cons, Nat.mul_zero, Nat.zero_add] at hvalue
    rw [hvalue]

/-- **A printed parameter reads back exactly if it may be printed that way**, and the others do. -/
theorem readParams_chars (q : Quoting) (p : Param) {tail : List Char} (ps : List Param)
    (htail : ∀ c ∈ tail.head?, c.isDigit = false) :
    readParams (p.chars q ++ tail) = some (p :: ps) ↔ q.AllowsParam p ∧ readOthers tail = some ps := by
  cases p with
  | number n =>
    show readParams (decimalDigits n ++ tail) = _ ↔ True ∧ _
    rw [readParams_number n htail]
    simp
  | text s =>
    show readParams ('"' :: q.chars s ++ ['"'] ++ tail) = _ ↔ q.Allows s ∧ _
    rw [List.append_assoc, List.cons_append, List.singleton_append, readParams, if_pos rfl,
      ← readText_chars]
    constructor
    · intro h
      obtain ⟨⟨v, ps'⟩, hr, heq⟩ := Option.map_eq_some_iff.1 h
      obtain ⟨rfl, rfl⟩ : String.ofList v = s ∧ ps' = ps := by simpa using heq
      rw [hr, String.toList_ofList]
    · intro h
      rw [h, Option.map_some, String.ofList_toList]

theorem readOthers_chars (q : Quoting) (ps : List Param) :
    readOthers (ps.flatMap fun p => ',' :: p.chars q) = some ps ↔ ∀ p ∈ ps, q.AllowsParam p := by
  induction ps with
  | nil => simp [readOthers]
  | cons p ps ih =>
    have htail : ∀ c ∈ (ps.flatMap fun p => ',' :: p.chars q).head?, c.isDigit = false := by
      cases ps with
      | nil => simp
      | cons p ps => simp
    rw [List.flatMap_cons, List.cons_append, readOthers, if_pos rfl, readParams_chars q p ps htail, ih]
    simp

/-! ### Line ends -/

theorem head?_escapeChars (cs : List Char) :
    '\n' ∈ (escapeChars cs).head? ↔ '\n' ∈ cs.head? := by
  cases cs with
  | nil => rfl
  | cons c cs =>
    by_cases hc : needsBackslash c = true
    · have hne : c ≠ '\n' := by
        rintro rfl
        cases hc
      simp [escapeChars, hc, hne]
    · simp [escapeChars, hc]

/-- **Escaping leaves the line ends of a text as they are.** -/
theorem apart_escapeChars (cs : List Char) :
    Apart '\r' '\n' (escapeChars cs) ↔ Apart '\r' '\n' cs := by
  induction cs with
  | nil => rfl
  | cons c cs ih =>
    by_cases hc : needsBackslash c = true
    · have hne : c ≠ '\r' := by
        rintro rfl
        cases hc
      rw [escapeChars, if_pos hc, apart_cons, apart_cons, apart_cons, ih]
      simp [hne]
    · rw [escapeChars, if_neg hc, apart_cons, apart_cons, ih, head?_escapeChars]

namespace Param

variable {q : Quoting}

theorem apart_number (n : Nat) : Apart '\r' '\n' ((number n).chars q) := by
  refine apart_of_not_mem fun h => ?_
  have := isDigit_of_mem_decimalDigits h
  cases this

theorem apart_text {s : String} :
    Apart '\r' '\n' ((text s).chars q) ↔ Apart '\r' '\n' s.toList := by
  have hchars : Apart '\r' '\n' (q.chars s) ↔ Apart '\r' '\n' s.toList := by
    cases q with
    | escaped => exact apart_escapeChars s.toList
    | raw => rfl
  have hnil : Apart '\r' '\n' ([] : List Char) := .nil
  show Apart _ _ ('"' :: (q.chars s ++ '"' :: [])) ↔ _
  rw [apart_cons, apart_append_cons (by decide) (by decide), hchars]
  simp [hnil]

end Param

/-- Commas keep the parameters apart. -/
theorem apart_flatMap (q : Quoting) (l : List Char) (ps : List Param) :
    Apart '\r' '\n' (l ++ ps.flatMap fun p => ',' :: p.chars q) ↔
      Apart '\r' '\n' l ∧ ∀ p ∈ ps, Apart '\r' '\n' (p.chars q) := by
  induction ps generalizing l with
  | nil => simp
  | cons p ps ih =>
    rw [List.flatMap_cons, List.cons_append, apart_append_cons (by decide) (by decide), ih]
    simp

/-! ### Commands -/

namespace Directive

variable {q : Quoting} {d : Directive}

theorem readParams_chars :
    readParams (d.first.chars q ++ d.others.flatMap fun p => ',' :: p.chars q) = some d.params ↔
      ∀ p ∈ d.params, q.AllowsParam p := by
  have htail : ∀ c ∈ (d.others.flatMap fun p => ',' :: p.chars q).head?, c.isDigit = false := by
    cases d.others with
    | nil => simp
    | cons p ps => simp
  unfold params
  rw [EspWifi.readParams_chars q d.first d.others htail, readOthers_chars]
  simp

theorem isNameChar_of_mem (d : Directive) {c : Char} (h : c ∈ d.name.toList) : isNameChar c = true :=
  List.all_eq_true.1 d.named c h

theorem dropLineEnd_append (cs : List Char) : dropLineEnd (cs ++ lineEnd.toList) = some cs := by
  have hlength : lineEnd.toList.length = 2 := rfl
  unfold dropLineEnd
  rw [if_pos (List.isSuffixOf_iff_suffix.2 (List.suffix_append _ _)), List.length_append, hlength,
    Nat.add_sub_cancel, List.take_left]

/-- **A printed command reads back exactly if its texts may be printed that way.** -/
theorem read?_line : read? (d.line q) = some d ↔ ∀ s, .text s ∈ d.params → q.Allows s := by
  have hname : ∀ c ∈ d.name.toList, decide (c ≠ '=') = true := by
    intro c hc
    refine decide_eq_true ?_
    rintro rfl
    cases d.isNameChar_of_mem hc
  have hbody : (d.text q ++ lineEnd).toList = d.chars q ++ lineEnd.toList := by
    rw [String.toList_append, text, String.toList_ofList]
  have htake : (d.chars q).takeWhile (· ≠ '=') = d.name.toList := by
    unfold chars
    rw [List.takeWhile_append_of_pos hname]
    simp
  have hdrop : ((d.chars q).dropWhile (· ≠ '=')).tail =
      d.first.chars q ++ d.others.flatMap fun p => ',' :: p.chars q := by
    unfold chars
    rw [List.dropWhile_append_of_pos hname]
    simp
  rw [← Quoting.allowsParam_iff, ← readParams_chars, line, read?, text?_utf8]
  simp only [Option.bind_eq_bind, Option.bind_some, hbody, dropLineEnd_append, htake, hdrop,
    String.ofList_toList, dif_pos d.named]
  constructor
  · intro h
    obtain ⟨ps, hps, h⟩ := Option.bind_eq_some_iff.1 h
    cases ps with
    | nil => cases h
    | cons p ps =>
      rw [hps, ← Option.some.inj h]
      rfl
  · intro h
    rw [h]
    rfl

/-- **A printed command is one line exactly if none of its texts has a line end in it.** -/
theorem isLine_line :
    IsLine (d.line q) ↔ ∀ s, .text s ∈ d.params → ¬ lineEnd.toList <:+: s.toList := by
  have hname : Apart '\r' '\n' d.name.toList := by
    refine apart_of_not_mem fun h => ?_
    cases d.isNameChar_of_mem h
  have hchars : Apart '\r' '\n' (d.chars q) ↔ ∀ p ∈ d.params, Apart '\r' '\n' (p.chars q) := by
    unfold chars params
    rw [apart_append_cons (by decide) (by decide), apart_flatMap]
    simp [hname]
  have hend : lineEnd.toList = ['\r', '\n'] := rfl
  rw [line, isLine_utf8, text, String.toList_ofList, hend, ← apart_iff, hchars]
  constructor
  · intro h s hs
    rw [← apart_iff, ← Param.apart_text]
    exact h _ hs
  · intro h p hp
    cases p with
    | number n => exact Param.apart_number n
    | text s =>
      rw [Param.apart_text, apart_iff]
      exact h s hp

end Directive

example : Directive.read? (utf8 "AT+CWJAP_CUR=\"a\\\"b\",\"c,d\",7\r\n") =
    some { name := "AT+CWJAP_CUR", first := .text "a\"b", others := [.text "c,d", .number 7] } := by
  decide +kernel

end EspWifi
