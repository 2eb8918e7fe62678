import EspWifi.Proofs.Modem.Question
import EspWifi.Proofs.Text.Addresses

/-!
# Reports of links

The module prints the links that are open one on each line, between the state of its connection and a tag.
A link is looked for by the beginning of its line. What a line tells beside the link and its type is not
looked at, and there a line may end with a known tag: the search goes no further than that line.

* `LinkLine`, `LinkLine.print`: a line, and a report as the module prints it.
* `LinkLine.heard`, `LinkLine.unheard`: the lines up to the first that ends a scan, and what is after it.
* `LinkLine.exists_decided_heard`, `LinkLine.exists_decided_unheard`: where a search ends.
* `Driver.wp_isListed`: the question for a link, and what is heard then.
* `Driver.isListed_print`: **a link is listed exactly if a line that is heard is about it.**
-/

namespace EspWifi

open Run

/-! ### The line of a link -/

/-- How the line of a link begins. -/
def linkTag (link : UInt8) : String := s!"+CIPSTATUS:{link},"

/-- **A line about a link**: which link it is, the type of its connection and what else is told of it. -/
structure LinkLine where
  link : UInt8
  type : String
  others : Bytes
  type_plain : ∀ c ∈ type.toList, Printable c ∧ c ≠ ','
  others_untagged : ∀ t : Tag, ¬ t.bytes <:+: others
  others_single : ¬ utf8 "+CIPSTATUS:" <:+: others

namespace LinkLine

/-- The line, with its end. -/
def bytes (l : LinkLine) : Bytes :=
  utf8 s!"+CIPSTATUS:{l.link},\"{l.type}\"," ++ l.others ++ utf8 lineEnd

/-- **The line ends with a known tag.** -/
def Closes (l : LinkLine) : Prop := ∃ t ∈ Tag.all, t.bytes <:+ l.others ++ utf8 lineEnd

instance (l : LinkLine) : Decidable l.Closes := by
  unfold Closes
  infer_instance

/-- The lines about the links, and the tag that ends a report. -/
def body (ls : List LinkLine) : Bytes := ls.flatMap bytes ++ Tag.ok.bytes

/-- **A report**: the state of the connection, and the lines about the links. -/
def print (state : Nat) (ls : List LinkLine) : Bytes := utf8 s!"STATUS:{state}\r\n" ++ body ls

/-- **The lines up to the first that ends with a known tag.** -/
def heard : List LinkLine → List LinkLine
  | [] => []
  | l :: ls => if l.Closes then [l] else l :: heard ls

/-- **What is after these lines**; nothing, if none of them ends with a known tag. -/
def unheard : List LinkLine → Bytes
  | [] => []
  | l :: ls => if l.Closes then body ls else unheard ls

/-- Reports without a line that ends with a known tag are heard whole. -/
theorem heard_eq_self {ls : List LinkLine} (h : ∀ l ∈ ls, ¬ l.Closes) :
    heard ls = ls ∧ unheard ls = [] := by
  induction ls with
  | nil => exact ⟨rfl, rfl⟩
  | cons l ls ih =>
    rw [List.forall_mem_cons] at h
    obtain ⟨hheard, hunheard⟩ := ih h.2
    rw [heard, unheard, if_neg h.1, if_neg h.1, hheard]
    exact ⟨rfl, hunheard⟩

/-! ### The beginning of a line -/

variable {wanted : Option UInt8} {link link' : UInt8} {t c g : Bytes} {n : Nat} {b : UInt8}

/-- The beginning of a line without its first and its last byte. -/
def linkName (link : UInt8) : Bytes := utf8 "CIPSTATUS:" ++ decimal link.toNat

theorem utf8_linkTag (link : UInt8) :
    utf8 (linkTag link) = ascii '+' :: linkName link ++ [ascii ','] := by
  have hlink : utf8 (toString link) = decimal link.toNat := rfl
  have hstart : utf8 (toString "+CIPSTATUS:") = ascii '+' :: utf8 "CIPSTATUS:" := rfl
  have hcomma : utf8 (toString ",") = [ascii ','] := rfl
  unfold linkTag linkName
  simp only [utf8_append, hlink, hstart, hcomma]
  simp

/-- The bytes that tell the parts of a line apart. -/
def marks : Bytes := [ascii '+', ascii '"', ascii ',', ascii '\r', ascii '\n']

theorem isDigitByte_of_mem (hb : b ∈ decimal n) : isDigitByte b = true := by
  rw [decimal_eq] at hb
  obtain ⟨c, hc, rfl⟩ := List.mem_map.1 hb
  exact isDigitByte_ascii (isDigit_of_mem_decimalDigits hc)

theorem not_mem_linkName (hb : b ∈ marks) : b ∉ linkName link := by
  have hword : ∀ b ∈ marks, b ∉ utf8 "CIPSTATUS:" := by decide +kernel
  have hdigit : ∀ b ∈ marks, isDigitByte b = false := by decide +kernel
  intro hmem
  rcases List.mem_append.1 hmem with h | h
  · exact hword b hb h
  · have := isDigitByte_of_mem h
    rw [hdigit b hb] at this
    cases this

theorem decimal_inj {m : Nat} (h : decimal m = decimal n) : m = n := by
  have htext : toString m = toString n := by
    have := congrArg text? h
    unfold decimal at this
    rwa [text?_utf8, text?_utf8, Option.some_inj] at this
  have hdigits : decimalDigits m = decimalDigits n := by
    rw [← toList_toString, ← toList_toString, htext]
  have := readDigits_decimal m
  rw [hdigits, readDigits_decimal] at this
  exact (Option.some.inj this).symm

/-- **Lines about different links begin differently**, and neither beginning ends with the other. -/
theorem eq_of_linkTag_suffix (h : utf8 (linkTag link) <:+ utf8 (linkTag link')) : link = link' := by
  obtain ⟨v, hv⟩ := h
  rw [utf8_linkTag, utf8_linkTag] at hv
  cases v with
  | nil =>
    have hname : linkName link = linkName link' := by simpa using hv
    exact UInt8.toNat_inj.1 (decimal_inj (List.append_cancel_left hname))
  | cons x v =>
    -- the plus sign would have to be inside of a beginning
    have htail : v ++ (ascii '+' :: linkName link ++ [ascii ',']) = linkName link' ++ [ascii ','] :=
      (List.cons.inj hv).2
    have hmem : ascii '+' ∈ linkName link' ++ [ascii ','] := by
      rw [← htail]
      simp
    rcases List.mem_append.1 hmem with h | h
    · exact absurd h (not_mem_linkName (by decide))
    · exact absurd h (by decide)

theorem length_linkTag_le (link : UInt8) : (utf8 (linkTag link)).length ≤ 15 := by
  have hword : (utf8 "CIPSTATUS:").length = 10 := rfl
  have hdigits : (decimal link.toNat).length ≤ 3 := by
    rw [decimal_eq, List.length_map]
    exact Nat.toDigits_length 10 link.toNat 3 (by decide) (Nat.lt_of_lt_of_le link.toNat_lt (by decide))
  rw [utf8_linkTag]
  simp only [linkName, List.length_append, List.length_cons, List.length_nil, hword]
  omega

/-- There is room for the beginning of every line. -/
theorem appendWithin_linkTag (link : UInt8) :
    appendWithin Driver.linkTagCapacity "" ["+CIPSTATUS:", toString link, ","] = some (linkTag link) := by
  have hjoin : String.join ["+CIPSTATUS:", toString link, ","] = linkTag link := by
    simp only [linkTag, String.join_cons, String.join_nil, String.append_assoc, String.append_empty]
    rfl
  have hsize : (linkTag link).utf8ByteSize ≤ Driver.linkTagCapacity :=
    (length_linkTag_le link).trans (by decide)
  rw [appendWithin_join (Nat.zero_le _), String.empty_append, hjoin, if_pos hsize]

/-! ### Tags that are looked for -/

/-- **The aim of a search**: the line of the link that is wanted, or no line. -/
def aim (wanted : Option UInt8) : Option Bytes := wanted.map fun link => utf8 (linkTag link)

/-- A search looks for the beginning of a line, and for the known tags. -/
theorem mem_sought (ht : t ∈ Scan.sought (aim wanted)) :
    (∃ link, wanted = some link ∧ t = utf8 (linkTag link)) ∨ ∃ k : Tag, t = k.bytes := by
  rcases List.mem_append.1 ht with h | h
  · left
    cases wanted with
    | none => cases h
    | some link => exact ⟨link, rfl, List.mem_singleton.1 h⟩
  · right
    obtain ⟨k, -, rfl⟩ := List.mem_map.1 h
    exact ⟨k, rfl⟩

/-- What is looked for begins with the plus sign and ends with the comma, or it ends with a line. -/
theorem sought_shape (ht : t ∈ Scan.sought (aim wanted)) :
    ascii '"' ∉ t ∧ ascii '+' ∉ t.tail ∧ ascii ',' ∉ t.dropLast ∧ t.head? ≠ some (ascii ',') ∧
      t.getLast? ≠ some (ascii '\r') ∧ (ascii ',' ∈ t ∨ ascii '\n' ∈ t) := by
  rcases mem_sought ht with ⟨link, -, rfl⟩ | ⟨k, rfl⟩
  case inr => cases k <;> decide
  have hfront {b : UInt8} (hb : b ∈ marks) (hplus : b ≠ ascii '+') :
      b ∉ ascii '+' :: linkName link := by
    rw [List.mem_cons]
    rintro (h | h)
    · exact hplus h
    · exact not_mem_linkName hb h
  have hback {b : UInt8} (hb : b ∈ marks) (hcomma : b ≠ ascii ',') :
      b ∉ linkName link ++ [ascii ','] := by
    rw [List.mem_append, List.mem_singleton]
    rintro (h | h)
    · exact not_mem_linkName hb h
    · exact hcomma h
  rw [utf8_linkTag, List.getLast?_concat, List.dropLast_concat]
  refine ⟨?_, hback (by decide) (by decide), hfront (by decide) (by decide), ?_, by decide, ?_⟩
  · rw [List.cons_append, List.mem_cons]
    rintro (h | h)
    · exact absurd h (by decide)
    · exact hback (by decide) (by decide) h
  · show some (ascii '+') ≠ some (ascii ',')
    decide
  · exact .inl (List.mem_append_right _ (List.mem_singleton_self _))

/-- No tag is where neither a comma nor the end of a line is. -/
theorem not_infix_of_plain (hcomma : ascii ',' ∉ c) (hfeed : ascii '\n' ∉ c) :
    ∀ t ∈ Scan.sought (aim wanted), ¬ t <:+: c := by
  intro t ht hin
  obtain ⟨-, -, -, -, -, h | h⟩ := sought_shape ht
  · exact hcomma (hin.subset h)
  · exact hfeed (hin.subset h)

/-- What is looked for is not in what else a line tells. -/
theorem not_infix_others (l : LinkLine) :
    ∀ t ∈ Scan.sought (aim wanted), ¬ t <:+: l.others := by
  intro t ht hin
  rcases mem_sought ht with ⟨link, -, rfl⟩ | ⟨k, rfl⟩
  · have hstart : utf8 "+CIPSTATUS:" <+: utf8 (linkTag link) :=
      ⟨decimal link.toNat ++ [ascii ','], by rw [utf8_linkTag, linkName]; rfl⟩
    exact l.others_single (hstart.isInfix.trans hin)
  · exact l.others_untagged k hin

/-- The beginning of a line does not end one. -/
theorem linkTag_not_suffix : ¬ utf8 (linkTag link) <:+ c ++ utf8 lineEnd := by
  rintro ⟨v, hv⟩
  have hend : c ++ utf8 lineEnd = (c ++ [ascii '\r']) ++ [ascii '\n'] := by
    rw [List.append_assoc]
    rfl
  rw [utf8_linkTag, hend, ← List.append_assoc] at hv
  obtain ⟨-, hlast⟩ := List.append_inj' hv rfl
  exact absurd hlast (by decide)

/-- **A line that ends with no known tag** has no verdict. -/
theorem silent_line_end (wanted : Option UInt8) (hfree : ∀ t ∈ Scan.sought (aim wanted), ¬ t <:+: c)
    (hopen : ∀ k : Tag, ¬ k.bytes <:+ c ++ utf8 lineEnd) :
    Scan.Silent (aim wanted) true (c ++ utf8 lineEnd) := by
  intro p hp
  by_cases hwhole : p = c ++ utf8 lineEnd
  · rw [hwhole]
    refine Scan.of_eq_none fun t ht hsuf => ?_
    rcases mem_sought ht with ⟨link, -, rfl⟩ | ⟨k, rfl⟩
    · exact linkTag_not_suffix hsuf
    · exact hopen k hsuf
  · exact Scan.of_line_beginning hfree (fun t ht => (sought_shape ht).2.2.2.2.1) hp hwhole

/-- **A line that ends with a known tag** is decided by it. -/
theorem exists_decided_line_end (wanted : Option UInt8)
    (hfree : ∀ t ∈ Scan.sought (aim wanted), ¬ t <:+: c)
    (hclosed : ∃ k ∈ Tag.all, k.bytes <:+ c ++ utf8 lineEnd) :
    ∃ k, Scan.Decided (aim wanted) true (c ++ utf8 lineEnd) (.matched k) := by
  obtain ⟨k, hk⟩ : ∃ k, Scan.known? (c ++ utf8 lineEnd) = some k := by
    refine Option.ne_none_iff_exists'.1 fun hnone => ?_
    obtain ⟨k, -, hsuf⟩ := hclosed
    exact Scan.known?_eq_none_iff.1 hnone k hsuf
  refine ⟨k, Scan.of_eq_matched_iff.2 ⟨rfl, ?_, hk⟩, fun p hp hne =>
    Scan.of_line_beginning hfree (fun t ht => (sought_shape ht).2.2.2.2.1) hp hne⟩
  rintro ⟨t, ht, -, -, hsuf⟩
  obtain ⟨link, -, rfl⟩ := Option.map_eq_some_iff.1 ht
  exact linkTag_not_suffix hsuf

/-! ### One line -/

/-- The type of the connection, in quotes. -/
def quoted (l : LinkLine) : List Char := '"' :: l.type.toList ++ ['"']

theorem plain_of_mem_quoted {l : LinkLine} {c : Char} (hc : c ∈ l.quoted) : Printable c ∧ c ≠ ',' := by
  have hquote : Printable '"' ∧ '"' ≠ ',' := by decide
  rw [quoted, List.cons_append, List.mem_cons, List.mem_append, List.mem_singleton] at hc
  rcases hc with rfl | hc | rfl
  · exact hquote
  · exact l.type_plain c hc
  · exact hquote

/-- The same as it goes over the link. -/
def field (l : LinkLine) : Bytes := l.quoted.map ascii

theorem field_eq (l : LinkLine) : l.field = ascii '"' :: l.type.toList.map ascii ++ [ascii '"'] := by
  unfold field quoted
  simp

theorem not_mem_field {l : LinkLine} {x : Char} (hlow : x.toNat < 128) (hx : ¬ (Printable x ∧ x ≠ ',')) :
    ascii x ∉ l.field := by
  rw [field, ascii_mem_map (fun c hc => (plain_of_mem_quoted hc).1.lt) hlow]
  exact fun hmem => hx (plain_of_mem_quoted hmem)

/-- **What a line tells of its link**, up to the comma behind the type. -/
def told (l : LinkLine) : Bytes := utf8 (linkTag l.link) ++ l.field ++ [ascii ',']

theorem bytes_eq (l : LinkLine) : l.bytes = l.told ++ (l.others ++ utf8 lineEnd) := by
  have hquote : utf8 (toString ",\"") = [ascii ',', ascii '"'] := rfl
  have hclose : utf8 (toString "\",") = [ascii '"', ascii ','] := rfl
  have hcomma : utf8 (toString ",") = [ascii ','] := rfl
  have htype : utf8 (toString l.type) = l.type.toList.map ascii := by
    rw [← utf8_ofList fun c hc => (l.type_plain c hc).1.lt, String.ofList_toList]
    rfl
  unfold bytes told linkTag
  rw [field_eq]
  simp only [utf8_append, hquote, hclose, hcomma, htype]
  simp

/-- A search for another line passes over the beginning of this one. -/
theorem silent_head (h : wanted ≠ some link) :
    Scan.Silent (aim wanted) true (utf8 (linkTag link)) := by
  intro p hp
  refine Scan.of_eq_none fun t ht hsuf => ?_
  have hfeed : ascii '\n' ∉ utf8 (linkTag link) := by
    rw [utf8_linkTag, List.cons_append, List.mem_cons, List.mem_append]
    rintro (h | h | h)
    · exact absurd h (by decide)
    · exact not_mem_linkName (by decide) h
    · exact absurd h (by decide)
  rcases mem_sought ht with ⟨link', rfl, rfl⟩ | ⟨k, rfl⟩
  case inr => exact hfeed (hp.subset (hsuf.subset (Scan.feed_mem_tag k)))
  have hcomma : ascii ',' ∈ p := by
    rw [utf8_linkTag] at hsuf
    exact hsuf.subset (List.mem_append_right _ (List.mem_singleton_self _))
  have hwhole := hp
  rw [utf8_linkTag] at hwhole
  -- the comma comes last in it
  rcases List.prefix_concat_iff.1 hwhole with hall | hfront
  · rw [hall, ← utf8_linkTag] at hsuf
    exact h (congrArg some (eq_of_linkTag_suffix hsuf))
  · rcases List.mem_cons.1 (hfront.subset hcomma) with h | h
    · exact absurd h (by decide)
    · exact not_mem_linkName (by decide) h

/-- **A search for a line finds where it begins.** -/
theorem decided_head (link : UInt8) :
    Scan.Decided (aim (some link)) true (utf8 (linkTag link)) .found := by
  have hlength := length_linkTag_le link
  have hfront : ascii '\n' ∉ ascii '+' :: linkName link := by
    rw [List.mem_cons]
    rintro (h | h)
    · exact absurd h (by decide)
    · exact not_mem_linkName (by decide) h
  rw [utf8_linkTag, List.length_append, List.length_singleton] at hlength
  have hsees : Scan.Sees [] (utf8 (linkTag link)) := by
    rw [utf8_linkTag]
    exact .of_line _ (Nat.lt_of_lt_of_le hlength (by decide)) hfront
  exact hsees.decided fun p hp hne hsuf => hne (hp.eq_of_length_le hsuf.length_le)

/-- The type, between the beginning of the line and the comma behind it. -/
def typed (l : LinkLine) : Between where
  pre := []
  start := utf8 (linkTag l.link)
  field := l.quoted
  stop := utf8 ","
  post := l.others ++ utf8 lineEnd
  field_ascii _ hc := (plain_of_mem_quoted hc).1.lt
  start_first _ hp hne hsuf := hne (hp.eq_of_length_le hsuf.length_le)
  stop_first := Scan.first_of_head (not_mem_field (x := ',') (by decide) (by decide))

/-- **The type ends with the comma behind it**, and it is read. -/
theorem decided_typed (l : LinkLine) :
    Scan.Decided (some (utf8 ",")) true (l.field ++ utf8 ",") .found ∧
      ∃ text, (Window.last (l.field ++ utf8 ",") : Window windowSize).extract Driver.shortCapacity
        (utf8 ",").length = .ok text := by
  have hsees : Scan.Sees l.field (utf8 ",") := by
    refine .of_line [] (by decide) ?_
    rw [List.append_nil]
    exact not_mem_field (by decide) (by decide)
  exact ⟨hsees.decided l.typed.stop_first, _, l.typed.extract_last hsees.fits _⟩

/-- A search for another line passes over what a line tells of its link. -/
theorem silent_told {l : LinkLine} (h : wanted ≠ some l.link) : Scan.Silent (aim wanted) true l.told := by
  have hfield : Scan.Silent (aim wanted) true l.field :=
    .of_free (not_infix_of_plain (not_mem_field (by decide) (by decide))
      (not_mem_field (by decide) (by decide)))
  have hcomma : Scan.Silent (aim wanted) true [ascii ','] := by
    refine .of_free fun t ht hin => ?_
    obtain ⟨-, -, -, hhead, -, hmem⟩ := sought_shape ht
    rcases List.sublist_singleton.1 hin.sublist with rfl | rfl
    · simp at hmem
    · exact hhead rfl
  unfold told
  refine ((silent_head h).append_cut hfield ?_).append_cut hcomma ?_
  · rw [field_eq]
    exact .of_head fun _ ht hmem => (sought_shape ht).1 (List.mem_of_mem_tail hmem)
  · rw [field_eq, ← List.append_assoc]
    exact .of_last fun _ ht hmem => (sought_shape ht).1 (List.mem_of_mem_dropLast hmem)

/-- What comes behind the comma was not begun before it. -/
theorem cut_told (l : LinkLine) (c : Bytes) : Scan.Cut (aim wanted) l.told c :=
  .of_last fun _ ht => (sought_shape ht).2.2.1

/-- A line begins with the plus sign, where no tag goes on. -/
theorem cut_bytes (g : Bytes) (l : LinkLine) : Scan.Cut (aim wanted) g l.bytes := by
  rw [bytes_eq, told, utf8_linkTag]
  exact .of_head fun t ht => (sought_shape ht).2.1

/-- A line ends with the line end. -/
theorem lineEnd_suffix (g : Bytes) (l : LinkLine) : utf8 lineEnd <:+ g ++ l.bytes := by
  rw [bytes_eq, ← List.append_assoc, ← List.append_assoc]
  exact List.suffix_append _ _

/-- **A line without a verdict**: it is about another link, and it ends with no known tag. -/
theorem silent_bytes {l : LinkLine} (h : wanted ≠ some l.link) (hopen : ¬ l.Closes) :
    Scan.Silent (aim wanted) true l.bytes := by
  have hends : ∀ k : Tag, ¬ k.bytes <:+ l.others ++ utf8 lineEnd := fun k hk => hopen ⟨k, k.mem_all, hk⟩
  rw [bytes_eq]
  exact (silent_told h).append_cut (silent_line_end wanted l.not_infix_others hends) (l.cut_told _)

/-- **A line that ends a search**: it is about another link, and it ends with a known tag. -/
theorem exists_decided_bytes {l : LinkLine} (h : wanted ≠ some l.link) (hclosed : l.Closes) :
    ∃ k, Scan.Decided (aim wanted) true l.bytes (.matched k) := by
  obtain ⟨k, hk⟩ := exists_decided_line_end wanted l.not_infix_others hclosed
  rw [bytes_eq]
  exact ⟨k, (silent_told h).decided_cut hk (l.cut_told _)⟩

/-- The tag behind the lines was not begun before it. -/
theorem cut_ok (hend : utf8 lineEnd <:+ g) : Scan.Cut (aim wanted) g Tag.ok.bytes := by
  have hknown : ∀ k ∈ Tag.all, ∀ p ∈ Tag.ok.bytes.inits, p ≠ [] →
      (k.bytes <:+ utf8 lineEnd ++ p → k.bytes <:+ p) ∧ ¬ utf8 lineEnd ++ p <:+ k.bytes := by
    decide
  have hreturn : ∀ p ∈ Tag.ok.bytes.inits, p ≠ [] → ascii '\r' ∈ p := by decide
  obtain ⟨g, rfl⟩ := hend
  intro p hp hne t ht hsuf
  have hin : p ∈ Tag.ok.bytes.inits := (List.mem_inits p _).2 hp
  rcases mem_sought ht with ⟨link, -, rfl⟩ | ⟨k, rfl⟩
  · rcases List.suffix_or_suffix_of_suffix hsuf (List.suffix_append _ p) with h | h
    · exact h
    · -- there is no carriage return in the beginning of a line
      have hmem := h.subset (hreturn p hin hne)
      rw [utf8_linkTag, List.cons_append, List.mem_cons, List.mem_append] at hmem
      rcases hmem with h | h | h
      · exact absurd h (by decide)
      · exact absurd h (not_mem_linkName (by decide))
      · exact absurd h (by decide)
  · obtain ⟨hwithin, hlonger⟩ := hknown k k.mem_all p hin hne
    rw [List.append_assoc] at hsuf
    rcases List.suffix_or_suffix_of_suffix hsuf (List.suffix_append g _) with h | h
    · exact hwithin h
    · exact absurd h hlonger

/-- **The tag behind the lines ends a search.** -/
theorem decided_ok : Scan.Decided (aim wanted) true Tag.ok.bytes (.matched .ok) := by
  have hbefore : ∀ p ∈ Tag.ok.bytes.inits, p ≠ Tag.ok.bytes → ∀ k ∈ Tag.all, ¬ k.bytes <:+ p := by decide
  have hcomma : ascii ',' ∉ Tag.ok.bytes := by decide
  have hother {link : UInt8} {p : Bytes} (hp : p <+: Tag.ok.bytes) : ¬ utf8 (linkTag link) <:+ p := by
    intro hsuf
    rw [utf8_linkTag] at hsuf
    exact hcomma (hp.subset (hsuf.subset (List.mem_append_right _ (List.mem_singleton_self _))))
  refine ⟨Scan.of_eq_matched_iff.2 ⟨rfl, ?_, by decide⟩, fun p hp hne => Scan.of_eq_none fun t ht => ?_⟩
  · rintro ⟨t, ht, -, -, hsuf⟩
    obtain ⟨link, -, rfl⟩ := Option.map_eq_some_iff.1 ht
    exact hother (List.prefix_refl _) hsuf
  · rcases mem_sought ht with ⟨link, -, rfl⟩ | ⟨k, rfl⟩
    · exact hother hp
    · exact hbefore p ((List.mem_inits p _).2 hp) hne k k.mem_all

/-! ### All lines -/

/-- **A search for a line that is not heard ends at the end of what is heard.** -/
theorem exists_decided_unheard {ls : List LinkLine} (h : ∀ l ∈ heard ls, wanted ≠ some l.link)
    (hg : Scan.Silent (aim wanted) true g) (hend : utf8 lineEnd <:+ g) :
    ∃ c k, body ls = c ++ unheard ls ∧ Scan.Decided (aim wanted) true (g ++ c) (.matched k) := by
  induction ls generalizing g with
  | nil => exact ⟨Tag.ok.bytes, .ok, by simp [body, unheard], hg.decided_cut decided_ok (cut_ok hend)⟩
  | cons l ls ih =>
    rw [heard] at h
    rw [unheard]
    by_cases hcloses : l.Closes
    · rw [if_pos hcloses] at h ⊢
      obtain ⟨k, hk⟩ := exists_decided_bytes (h l (List.mem_singleton_self l)) hcloses
      exact ⟨l.bytes, k, by simp [body], hg.decided_cut hk (cut_bytes g l)⟩
    · rw [if_neg hcloses] at h ⊢
      rw [List.forall_mem_cons] at h
      have hline := hg.append_cut (silent_bytes h.1 hcloses) (cut_bytes g l)
      obtain ⟨c, k, hc, hk⟩ := ih h.2 hline (lineEnd_suffix g l)
      refine ⟨l.bytes ++ c, k, ?_, by rwa [← List.append_assoc]⟩
      rw [List.append_assoc, ← hc]
      simp [body]

/-- **A search for a line that is heard finds where it begins**, and what is heard of the rest ends where
the lines that are heard do. -/
theorem exists_decided_heard {ls : List LinkLine} {link : UInt8} (h : ∃ l ∈ heard ls, l.link = link)
    (hg : Scan.Silent (aim (some link)) true g) :
    ∃ c l ls', body ls = c ++ (l.field ++ [ascii ','] ++ (l.others ++ utf8 lineEnd) ++ body ls') ∧
      Scan.Decided (aim (some link)) true (g ++ c) .found ∧ unheard ls = unheard (l :: ls') := by
  induction ls generalizing g with
  | nil => simp [heard] at h
  | cons l ls ih =>
    by_cases hlink : l.link = link
    · refine ⟨utf8 (linkTag l.link), l, ls, ?_, ?_, rfl⟩
      · simp [body, bytes_eq, told]
      · rw [hlink]
        refine hg.decided_cut (decided_head link) ?_
        rw [utf8_linkTag]
        exact .of_head fun t ht => (sought_shape ht).2.1
    · have hother : some link ≠ some l.link := fun heq => hlink (Option.some.inj heq).symm
      rw [heard] at h
      by_cases hcloses : l.Closes
      · rw [if_pos hcloses] at h
        obtain ⟨l', hl', rfl⟩ := h
        exact absurd (congrArg LinkLine.link (List.mem_singleton.1 hl').symm) hlink
      · rw [if_neg hcloses, List.exists_mem_cons_iff] at h
        have hline := hg.append_cut (silent_bytes hother hcloses) (cut_bytes g l)
        obtain ⟨c, l', ls', hc, hfound, hrest⟩ := ih (h.resolve_left hlink) hline
        refine ⟨l.bytes ++ c, l', ls', ?_, by rwa [← List.append_assoc], ?_⟩
        · rw [List.append_assoc, ← hc]
          simp [body]
        · rw [unheard, if_neg hcloses, hrest]

/-- **Behind the type of a link, the rest of what is heard is read.** -/
theorem exists_decided_rest (l : LinkLine) (ls : List LinkLine) :
    ∃ c k, l.others ++ utf8 lineEnd ++ body ls = c ++ unheard (l :: ls) ∧
      Scan.Decided none true c (.matched k) := by
  rw [unheard]
  by_cases hcloses : l.Closes
  · obtain ⟨k, hk⟩ := exists_decided_line_end none l.not_infix_others hcloses
    rw [if_pos hcloses]
    exact ⟨l.others ++ utf8 lineEnd, k, rfl, hk⟩
  · have hends : ∀ k : Tag, ¬ k.bytes <:+ l.others ++ utf8 lineEnd := fun k hk =>
      hcloses ⟨k, k.mem_all, hk⟩
    have hline := silent_line_end none l.not_infix_others hends
    have hnone : ∀ l ∈ heard ls, none ≠ some l.link := fun _ _ => nofun
    obtain ⟨c, k, hc, hk⟩ := exists_decided_unheard hnone hline (List.suffix_append _ _)
    rw [if_neg hcloses, hc]
    exact ⟨_, k, by simp only [List.append_assoc], hk⟩

/-- A search passes over the state of the connection. -/
theorem silent_state (wanted : Option UInt8) (state : Nat) :
    Scan.Silent (aim wanted) true (utf8 s!"STATUS:{state}\r\n") ∧
      utf8 lineEnd <:+ utf8 s!"STATUS:{state}\r\n" := by
  have hline : utf8 s!"STATUS:{state}\r\n" = utf8 "STATUS:" ++ decimal state ++ utf8 lineEnd := by
    simp only [utf8_append]
    rfl
  have hword : ∀ b ∈ marks, b ∉ utf8 "STATUS:" ∧ isDigitByte b = false := by decide +kernel
  have hplain {b : UInt8} (hb : b ∈ marks) : b ∉ utf8 "STATUS:" ++ decimal state := by
    intro hmem
    rcases List.mem_append.1 hmem with h | h
    · exact (hword b hb).1 h
    · exact Bool.false_ne_true ((hword b hb).2.symm.trans (isDigitByte_of_mem h))
  rw [hline]
  refine ⟨silent_line_end wanted (not_infix_of_plain (hplain (by decide)) (hplain (by decide))) fun k hk => ?_,
    List.suffix_append _ _⟩
  -- a digit comes before the end of this line, and a letter before the end of every known tag
  have hletters : ∀ k ∈ Tag.all, 3 < k.bytes.length ∧ ∀ b ∈ k.bytes, isDigitByte b = false := by
    decide +kernel
  obtain ⟨hlong, hletter⟩ := hletters k k.mem_all
  have hdigits : decimal state ≠ [] := by
    rw [decimal_eq]
    exact fun h => decimalDigits_ne_nil state (List.map_eq_nil_iff.1 h)
  obtain ⟨front, b, hb⟩ := List.eq_nil_or_concat (decimal state) |>.resolve_left hdigits
  have hdigit : isDigitByte b = true := isDigitByte_of_mem (n := state) (by rw [hb]; simp)
  have hsplit : utf8 "STATUS:" ++ decimal state ++ utf8 lineEnd =
      (utf8 "STATUS:" ++ front) ++ (b :: utf8 lineEnd) := by
    rw [hb]
    simp
  rw [hsplit] at hk
  rcases List.suffix_or_suffix_of_suffix hk (List.suffix_append _ _) with h | h
  · exact absurd h.length_le (Nat.not_le.2 hlong)
  · have := hletter b (h.subset List.mem_cons_self)
    rw [hdigit] at this
    cases this

/-- **Where a search for a link ends that no line is about that is heard**: where what is heard ends. -/
theorem exists_print_unheard (state : Nat) {ls : List LinkLine}
    (h : ∀ l ∈ heard ls, wanted ≠ some l.link) :
    ∃ c k, print state ls = c ++ unheard ls ∧ Scan.Decided (aim wanted) true c (.matched k) := by
  obtain ⟨hsilent, hend⟩ := silent_state wanted state
  obtain ⟨c, k, hbody, hmatched⟩ := exists_decided_unheard h hsilent hend
  refine ⟨_, k, ?_, hmatched⟩
  rw [print, hbody, List.append_assoc]

/-- **Where the scans end for a link that such a line is about**: where the line begins, behind the type,
and where what is heard ends. -/
theorem exists_print_heard (state : Nat) {ls : List LinkLine} (h : ∃ l ∈ heard ls, l.link = link) :
    ∃ c₁ l c₃ k, print state ls = c₁ ++ ((field l ++ utf8 ",") ++ (c₃ ++ unheard ls)) ∧
      Scan.Decided (aim (some link)) true c₁ .found ∧ Scan.Decided none true c₃ (.matched k) := by
  obtain ⟨hsilent, -⟩ := silent_state (some link) state
  obtain ⟨c₁, l, ls', hbody, hfound, hunheard⟩ := exists_decided_heard h hsilent
  obtain ⟨c₃, k, hrest, hlast⟩ := exists_decided_rest l ls'
  refine ⟨_, l, c₃, k, ?_, hfound, hlast⟩
  have hcomma : utf8 "," = [ascii ','] := rfl
  rw [hunheard, ← hrest, print, hbody, hcomma]
  simp only [List.append_assoc]

end LinkLine

/-! ### A search in a report -/

namespace Driver

section

variable {σ : Type} [Device σ]

/-- Ask for the links, in search of one of them. -/
def askLinks (link : UInt8) : Attempt (Driver σ) Unit := do
  logDebug s!"> client_state {link}"
  tryEngine (Engine.ask "AT+CIPSTATUS")

/-- Whether a line is there, by the result of the query for its first field. -/
def isThere : Except Fault String → Except Fault Bool
  | .ok _ => .ok true
  | .error (.notFound _) => .ok false
  | .error f => .error f

/-- A search is the question and what is heard then. -/
theorem wp_isListed {cut : Prop} {link : UInt8} {d : Driver σ} {Q : Except Fault Bool → Driver σ → Prop}
    (h : Attempt.wp cut (askLinks link)
      (fun _ d₁ => wp cut (Engine.hearField (utf8 (linkTag link)) (utf8 ",") shortCapacity).run
        (fun r e => Q (isThere r) { d₁ with engine := e }) d₁.engine)
      (fun f d' => Q (isThere (.error f)) d') d) :
    wp cut (isListed link).run Q d := by
  have conclude {f : Fault} {d' : Driver σ} (h : Q (isThere (.error f)) d') :
      wp cut (match (.error f : Except Fault String) with
        | .ok _ => pure true
        | .error (.notFound _) => pure false
        | .error f => throw f : Attempt (Driver σ) Bool).run Q d' := by
    cases f <;> exact h
  unfold askLinks at h
  unfold isListed query
  rw [LinkLine.appendWithin_linkTag]
  simp only [Attempt.wp_run, Attempt.wp_bind, Attempt.wp_lift, wp_tryEngine, Engine.queryField_eq] at h ⊢
  refine Attempt.wp_lift.2 (wp_mono (Attempt.wp_lift.1 h) fun _ d₁ h₁ => ?_)
  refine Attempt.wp_mono h₁ (fun _ e he => ?_) fun f e hf => ?_
  · exact Attempt.wp_mono he (fun _ _ h => h) fun f _ hf => Attempt.wp_run.1 (conclude hf)
  · exact Attempt.wp_run.1 (conclude hf)

end

variable {d d₁ : Driver Bench} {link : UInt8} {behind : Bytes} {state : Nat} {ls : List LinkLine}

/-- **A link is listed exactly if a line that is heard is about it.** -/
theorem isListed_print (hasked : (askLinks link).run d = .ok (.ok ()) d₁)
    (hwaits : d₁.engine.device.Waits (LinkLine.print state ls ++ behind))
    (htime : d₁.engine.TimeFor (LinkLine.print state ls).length) :
    ∃ d', (isListed link).run d = .ok (.ok (decide (∃ l ∈ LinkLine.heard ls, l.link = link))) d' ∧
      d'.engine.device.Waits (LinkLine.unheard ls ++ behind) ∧
      ((∀ l ∈ ls, ¬ l.Closes) → LinkLine.heard ls = ls ∧ LinkLine.unheard ls = []) ∧
      (appendWithin linkTagCapacity "" ["+CIPSTATUS:", toString link, ","]).isSome := by
  have hresult : wp False (isListed link).run (fun r d' =>
      r = .ok (decide (∃ l ∈ LinkLine.heard ls, l.link = link)) ∧
        d'.engine.device.Waits (LinkLine.unheard ls ++ behind)) d := by
    refine wp_isListed ((wp_iff_of_ok hasked).2 (Attempt.wp_run.2 ?_))
    by_cases hlisted : ∃ l ∈ LinkLine.heard ls, l.link = link
    case pos =>
      obtain ⟨c₁, l, c₃, k, hprint, hfound, hlast⟩ := LinkLine.exists_print_heard state hlisted
      obtain ⟨htyped, text, htext⟩ := l.decided_typed
      have hlength : (c₁ ++ ((l.field ++ utf8 ",") ++ c₃)).length ≤ (LinkLine.print state ls).length := by
        rw [hprint]
        simp only [List.length_append]
        omega
      have hwaits₁ : d₁.engine.device.Waits
          (c₁ ++ ((l.field ++ utf8 ",") ++ (c₃ ++ (LinkLine.unheard ls ++ behind)))) := by
        rw [hprint] at hwaits
        simpa only [List.append_assoc] using hwaits
      refine Attempt.wp_mono (Engine.wp_hearField_whole hwaits₁ htime hlength hfound htyped hlast htext) ?_
        (fun _ _ hnever => hnever.elim)
      rintro _ e ⟨-, hrest⟩
      exact ⟨congrArg _ (decide_eq_true hlisted).symm, hrest⟩
    case neg =>
      have hother : ∀ l ∈ LinkLine.heard ls, some link ≠ some l.link := fun l hl heq =>
        hlisted ⟨l, hl, (Option.some.inj heq).symm⟩
      obtain ⟨c, k, hprint, hmatched⟩ := LinkLine.exists_print_unheard state hother
      have hlength : c.length ≤ (LinkLine.print state ls).length := by
        rw [hprint, List.length_append]
        omega
      rw [hprint, List.append_assoc] at hwaits
      refine Attempt.wp_mono (Engine.wp_hearField_ended hwaits htime hlength hmatched)
        (fun _ _ hnever => hnever.elim) ?_
      rintro f e ⟨rfl, hrest⟩
      exact ⟨congrArg _ (decide_eq_false hlisted).symm, hrest⟩
  obtain ⟨_, d', hrun, rfl, hrest⟩ := wp_false_iff.1 hresult
  exact ⟨d', hrun, hrest, LinkLine.heard_eq_self, by rw [LinkLine.appendWithin_linkTag]; rfl⟩

theorem plain_tcp : ∀ c ∈ "TCP".toList, Printable c ∧ c ≠ ',' := by
  have hplain : "TCP".toList.all (fun c => Printable c ∧ c ≠ ',') = true := by decide
  exact fun c hc => of_decide_eq_true (List.all_eq_true.1 hplain c hc)

/-- A line about a link to a server, as the module prints it. -/
def serverLine (link : UInt8) : LinkLine where
  link := link
  type := "TCP"
  others := utf8 "\"192.168.4.2\",4000,80,1"
  type_plain := plain_tcp
  others_untagged := by
    intro t
    cases t <;> decide
  others_single := by decide

/-- A line that ends with a known tag. -/
def closingLine (link : UInt8) : LinkLine where
  link := link
  type := "TCP"
  others := utf8 "80 CONNECT"
  type_plain := plain_tcp
  others_untagged := by
    intro t
    cases t <;> decide
  others_single := by decide

/-- Links whose numbers begin alike, and one behind the line that ends with a known tag. -/
def fourLines : List LinkLine := [serverLine 12, serverLine 1, closingLine 2, serverLine 0]

/-- The module reports these. -/
def reporting : Driver Bench where
  engine := { device := { replies := [[(0, LinkLine.print 3 fourLines)]] } }

/-- The question for a link was asked, and the report waits. -/
theorem exists_askedLinks (link : UInt8) (h : shown? (askLinks link).run (fun r d =>
      (r, decide (d.engine.device.rx = LinkLine.print 3 fourLines ∧
        d.engine.device.arrivals.entries = [] ∧ d.engine.device.step = 1 ∧ d.engine.timeouts = {})))
      reporting = some (.ok (), true)) :
    ∃ d₁, (askLinks link).run reporting = .ok (.ok ()) d₁ ∧
      d₁.engine.device.Waits (LinkLine.print 3 fourLines) ∧
      d₁.engine.TimeFor (LinkLine.print 3 fourLines).length := by
  obtain ⟨r, d₁, hrun, hshown⟩ := shown?_eq_some.1 h
  obtain ⟨rfl, hdecide⟩ := Prod.mk.inj hshown
  obtain ⟨hrx, harrivals, hstep, htimeouts⟩ := of_decide_eq_true hdecide
  have hlength : (LinkLine.print 3 fourLines).length < 500 := by decide +kernel
  refine ⟨d₁, hrun, ⟨hrx, congrArg Schedule.mk harrivals⟩, ?_, ?_, ?_⟩
  all_goals
    rw [hstep, htimeouts, Nat.mul_one]
    exact hlength.trans_le (by decide)

/-- The link 1 is found behind the link 12. What is behind the tag that ends a line is left. -/
theorem isListed_one :
    ∃ d₁ d', (askLinks 1).run reporting = .ok (.ok ()) d₁ ∧
      d₁.engine.device.Waits (LinkLine.print 3 fourLines ++ []) ∧
      d₁.engine.TimeFor (LinkLine.print 3 fourLines).length ∧
      (isListed 1).run reporting = .ok (.ok true) d' ∧
      d'.engine.device.Waits ((serverLine 0).bytes ++ Tag.ok.bytes) := by
  obtain ⟨d₁, hasked, hwaits, htime⟩ := exists_askedLinks 1 (by decide +kernel)
  rw [← List.append_nil (LinkLine.print 3 fourLines)] at hwaits
  obtain ⟨d', hrun, hrest, -, -⟩ := isListed_print hasked hwaits htime
  have hlisted : decide (∃ l ∈ LinkLine.heard fourLines, l.link = 1) = true := by decide
  have hleft : LinkLine.unheard fourLines ++ [] = (serverLine 0).bytes ++ Tag.ok.bytes := by decide
  rw [hlisted] at hrun
  rw [hleft] at hrest
  exact ⟨d₁, d', hasked, hwaits, htime, hrun, hrest⟩

/-- **A listed link is not found behind a line that ends with a known tag.** All of the report waits and
can be read in time. -/
theorem isListed_behind_tag :
    (∃ l ∈ fourLines, l.link = 0) ∧ ∃ d₁ d', (askLinks 0).run reporting = .ok (.ok ()) d₁ ∧
      d₁.engine.device.Waits (LinkLine.print 3 fourLines) ∧
      d₁.engine.TimeFor (LinkLine.print 3 fourLines).length ∧
      (isListed 0).run reporting = .ok (.ok false) d' ∧
      d'.engine.device.rx = (serverLine 0).bytes ++ Tag.ok.bytes := by
  obtain ⟨d₁, hasked, hwaits, htime⟩ := exists_askedLinks 0 (by decide +kernel)
  have hvalue : shown? (isListed 0).run (fun r d => (r, d.engine.device.rx)) reporting =
      some (.ok false, (serverLine 0).bytes ++ Tag.ok.bytes) := by
    decide +kernel
  obtain ⟨r, d', hrun, hshown⟩ := shown?_eq_some.1 hvalue
  obtain ⟨rfl, hrx⟩ := Prod.mk.inj hshown
  exact ⟨by decide, d₁, d', hasked, hwaits, htime, hrun, hrx⟩

end Driver

end EspWifi
