import EspWifi.Proofs.Modem.Addresses

/-!
# The network that was joined

One line of the module tells of the network that was joined: its name, the address of its access point, the
channel, and the strength of the signal. The tags in front of the address and of the signal strength are two
bytes each, and they are looked for from the beginning of the line. A name may hold them, too, and then the
field begins in the name.

* `Joined.line`, `Joined.reply`: the line, and the response it stands in.
* `behindFirst`: what stands behind two neighbours, where they are neighbours for the first time.
* `Between.paired`, `Question.Answered.exists_ask_apart`: a field between two tags of two bytes.
* `Driver.joined_read`: **what is returned, and for which names this is what the module has printed.**
-/

namespace EspWifi

open Run

/-! ### Neighbours -/

section

variable {α : Type} [DecidableEq α] {x y : α} {a b l : List α}

/-- **What stands behind `x` and `y`**, where they are neighbours for the first time. -/
def behindFirst (x y : α) : List α → List α
  | [] => []
  | a :: l => if a = x ∧ l.head? = some y then l.tail else behindFirst x y l

theorem behindFirst_append (hxy : x ≠ y) (h : Apart x y a) : behindFirst x y (a ++ x :: y :: b) = b := by
  induction a with
  | nil => simp [behindFirst]
  | cons c a ih =>
    obtain ⟨ha, hc⟩ := apart_cons.1 h
    have hnext : ¬ (c = x ∧ (a ++ x :: y :: b).head? = some y) := by
      rintro ⟨rfl, hhead⟩
      cases a with
      | nil => exact hxy (Option.some.inj hhead)
      | cons c' a => exact hc ⟨rfl, hhead⟩
    rw [List.cons_append, behindFirst, if_neg hnext, ih ha]

theorem exists_eq_behindFirst (h : [x, y] <:+: l) :
    ∃ a, Apart x y a ∧ l = a ++ x :: y :: behindFirst x y l := by
  induction l with
  | nil => exact absurd (List.infix_nil.1 h) (List.cons_ne_nil _ _)
  | cons c l ih =>
    by_cases hfirst : c = x ∧ l.head? = some y
    · obtain ⟨rfl, hhead⟩ := hfirst
      obtain ⟨l, rfl⟩ := List.head?_eq_some_iff.1 hhead
      exact ⟨[], .nil, by simp [behindFirst]⟩
    · have hlater : [x, y] <:+: l := by
        rcases List.infix_cons_iff.1 h with ⟨rest, hrest⟩ | hlater
        · obtain ⟨rfl, rfl⟩ := List.cons.inj hrest
          exact absurd ⟨rfl, rfl⟩ hfirst
        · exact hlater
      obtain ⟨a, ha, hl⟩ := ih hlater
      rw [behindFirst, if_neg hfirst]
      refine ⟨c :: a, apart_cons.2 ⟨ha, ?_⟩, congrArg (c :: ·) hl⟩
      rintro ⟨rfl, hhead⟩
      refine hfirst ⟨rfl, ?_⟩
      rw [hl, List.head?_append, hhead]
      rfl

end

/-! ### Numbers -/

/-- A row of digits is less than the power of ten with as many zeros. -/
theorem ofDigitChars_lt {ds : List Char} (hds : ∀ c ∈ ds, c.isDigit = true) :
    Nat.ofDigitChars 10 ds 0 < 10 ^ ds.length := by
  induction ds with
  | nil => exact Nat.one_pos
  | cons c ds ih =>
    rw [List.forall_mem_cons] at hds
    have hrange := toNat_of_isDigit hds.1
    have hlater := ih hds.2
    have hdigit : c.toNat - '0'.toNat ≤ 9 := by
      show c.toNat - 48 ≤ 9
      omega
    rw [Nat.ofDigitChars_cons, Nat.ofDigitChars_eq_ofDigitChars_zero, Nat.mul_zero, Nat.zero_add,
      List.length_cons, Nat.pow_succ]
    have hmul := Nat.mul_le_mul_left (10 ^ ds.length) hdigit
    omega

namespace Driver

/-- **A row of at most nine digits is read as a signal strength.** -/
theorem rssiOfText?_digits {ds : List Char} (hds : ∀ c ∈ ds, c.isDigit = true) (hne : ds ≠ [])
    (hshort : ds.length ≤ shortCapacity) :
    rssiOfText? (String.ofList ds) = some (-(Nat.ofDigitChars 10 ds 0 : Int)) := by
  have hall : ds.takeWhile (fun c => '0' ≤ c && c ≤ '9') = ds := by
    rw [List.takeWhile_eq_self_iff]
    intro c hc
    simpa only [Bool.and_eq_true, decide_eq_true_eq] using le_of_isDigit (hds c hc)
  have hplus : '+' ∉ ds := fun hmem => absurd (hds '+' hmem) (by decide)
  have hlimit : Nat.ofDigitChars 10 ds 0 ≤ rssiLimit := by
    have hpow : 10 ^ ds.length ≤ 10 ^ shortCapacity := Nat.pow_le_pow_right (by decide) hshort
    exact (ofDigitChars_lt hds).le.trans (hpow.trans (by decide))
  rw [rssiOfText?, String.toList_ofList, hall, readUnsigned_eq hne hplus (readDigits_ten hds 0) hlimit]
  rfl

end Driver

/-! ### Fields between two tags of two bytes -/

section

variable {before field after : List Char} {x y u v : Char}

/-- **A response with a field between two tags of two bytes.** Each tag stands where its two bytes are
neighbours for the first time. -/
def Between.paired (before field after : List Char) (x y u v : Char)
    (text_ascii : ∀ c ∈ before ++ x :: y :: (field ++ u :: v :: after), c.toNat < 128)
    (hxy : x ≠ y) (huv : u ≠ v) (hbefore : Apart x y before) (hfield : Apart u v field) : Between where
  pre := before.map ascii
  start := [ascii x, ascii y]
  field := field
  stop := [ascii u, ascii v]
  post := after.map ascii
  field_ascii c hc := text_ascii c (by simp [hc])
  start_first := by
    have hx : x.toNat < 128 := text_ascii x (by simp)
    have hy : y.toNat < 128 := text_ascii y (by simp)
    have hascii : ∀ c ∈ before, c.toNat < 128 := fun c hc => text_ascii c (by simp [hc])
    exact Scan.first_of_apart (mt (ascii_inj hx hy).1 hxy) ((apart_map_ascii hascii hx hy).2 hbefore)
  stop_first := by
    have hu : u.toNat < 128 := text_ascii u (by simp)
    have hv : v.toNat < 128 := text_ascii v (by simp)
    have hascii : ∀ c ∈ field, c.toNat < 128 := fun c hc => text_ascii c (by simp [hc])
    exact Scan.first_of_apart (mt (ascii_inj hu hv).1 huv) ((apart_map_ascii hascii hu hv).2 hfield)

variable (text_ascii : ∀ c ∈ before ++ x :: y :: (field ++ u :: v :: after), c.toNat < 128)
  (hxy : x ≠ y) (huv : u ≠ v) (hbefore : Apart x y before) (hfield : Apart u v field)

theorem Between.bytes_paired : (paired before field after x y u v text_ascii hxy huv hbefore hfield).bytes =
    utf8 (String.ofList (before ++ x :: y :: (field ++ u :: v :: after))) := by
  rw [utf8_ofList text_ascii]
  simp [paired, Between.bytes, Between.fieldBytes]

/-- Both tags are seen if no line ends before the last byte of the second one. -/
theorem Between.seen_paired (hline : '\n' ∉ before ++ x :: y :: (field ++ [u])) :
    (paired before field after x y u v text_ascii hxy huv hbefore hfield).Seen := by
  have hpart : before ++ x :: y :: (field ++ [u]) <+: before ++ x :: y :: (field ++ u :: v :: after) :=
    ⟨v :: after, by simp⟩
  have hfeed : ascii '\n' ∉ (before ++ x :: y :: (field ++ [u])).map ascii :=
    mt (ascii_mem_map (fun c hc => text_ascii c (hpart.subset hc)) (by decide)).1 hline
  have hone : 1 < windowSize := by decide
  constructor
  · have hfront : before.map ascii ++ [ascii x] <+: (before ++ x :: y :: (field ++ [u])).map ascii :=
      ⟨ascii y :: (field ++ [u]).map ascii, by simp⟩
    exact Scan.Sees.of_line [ascii x] hone fun hmem => hfeed (hfront.subset hmem)
  · have hback : field.map ascii ++ [ascii u] <:+ (before ++ x :: y :: (field ++ [u])).map ascii :=
      ⟨(before ++ [x, y]).map ascii, by simp⟩
    exact Scan.Sees.of_line [ascii u] hone fun hmem => hfeed (hback.subset hmem)

end

/-- **A field between two tags of two bytes is read**, as much of it as the window keeps. -/
theorem Question.Answered.exists_ask_apart {α : Type} {q : Question α} {d d₁ : Driver Bench}
    {x y u v : Char} {text : List Char} (before field after : List Char)
    (h : q.Answered (utf8 (String.ofList text)) d d₁) (hascii : ∀ c ∈ text, c.toNat < 128)
    (htext : text = before ++ x :: y :: (field ++ u :: v :: after))
    (hstart : utf8 q.start = [ascii x, ascii y]) (hstop : utf8 q.stop = [ascii u, ascii v])
    (hxy : x ≠ y) (huv : u ≠ v) (hbefore : Apart x y before) (hfield : Apart u v field)
    (hline : '\n' ∉ before ++ x :: y :: (field ++ [u])) :
    ∃ d', q.ask.run d = .ok (q.result (field.drop (field.length + 2 - windowSize))) d' := by
  subst htext
  have hseen := Between.seen_paired hascii hxy huv hbefore hfield hline
  rw [← Between.bytes_paired hascii hxy huv hbefore hfield] at h
  exact h.exists_ask hstart.symm hstop.symm hseen

/-! ### The line -/

/-- **The network that was joined**, as the module tells of it. The signal strength is not above zero. -/
structure Joined where
  ssid : List Char
  octets : Vector UInt8 6
  /-- Which digits of the octets are printed in upper case. -/
  upper : Fin 6 → Bool × Bool
  /-- The digits of the channel. -/
  channel : List Char
  /-- The signal strength, without its sign. -/
  level : Nat
  ssid_short : ssid.length ≤ ssidCapacity
  ssid_printable : ∀ c ∈ ssid, Printable c
  ssid_unquoted : '"' ∉ ssid
  channel_digits : ∀ c ∈ channel, c.isDigit = true

namespace Joined

variable (j : Joined)

/-- What comes before the name. -/
def opening : List Char := ['+', 'C', 'W', 'J', 'A', 'P', ':', '"']

/-- The octets, as they are printed. -/
def address : List Char := Mac.print j.octets j.upper

/-- What comes before the signal strength and its sign. -/
def front : List Char :=
  opening ++ (j.ssid ++ '"' :: ',' :: '"' :: (j.address ++ '"' :: ',' :: j.channel))

/-- **The line that tells of the network.** -/
def line : List Char := j.front ++ ',' :: '-' :: decimalDigits j.level

/-- What comes behind the line. -/
def ending : List Char := ['\r', '\n', '\r', '\n', 'O', 'K', '\r', '\n']

/-- **The response.** -/
def reply : Bytes := utf8 (String.ofList (j.line ++ ending))

/-- **The text that is read as the signal strength.** It begins behind the first `,-` of the line, or where
the window does, which holds the end of the line. -/
def levelText : String :=
  let field := behindFirst ',' '-' j.line
  String.ofList ((field.drop (field.length + 2 - windowSize)).take Driver.shortCapacity)

variable {j}

theorem printable_front {c : Char} (hc : c ∈ j.front) : Printable c := by
  have hopening : ∀ c ∈ opening, Printable c := Printable.of_all (by decide)
  simp only [front, List.mem_append, List.mem_cons] at hc
  rcases hc with hc | hc | rfl | rfl | rfl | hc | rfl | rfl | hc
  · exact hopening c hc
  · exact j.ssid_printable c hc
  · decide
  · decide
  · decide
  · exact Mac.printable_of_mem hc
  · decide
  · decide
  · exact .of_isDigit (j.channel_digits c hc)

/-- **The line can be printed.** -/
theorem printable_line {c : Char} (hc : c ∈ j.line) : Printable c := by
  simp only [line, List.mem_append, List.mem_cons] at hc
  rcases hc with hc | rfl | rfl | hc
  · exact j.printable_front hc
  · decide
  · decide
  · exact .of_isDigit (isDigit_of_mem_decimalDigits hc)

theorem ascii_of_mem {c : Char} (hc : c ∈ j.line ++ ending) : c.toNat < 128 := by
  have hending : ending.all (·.toNat < 128) = true := by decide
  rcases List.mem_append.1 hc with hc | hc
  · exact (j.printable_line hc).lt
  · exact of_decide_eq_true (List.all_eq_true.1 hending c hc)

/-- What comes before the signal strength has no `,-` outside the name. -/
theorem apart_front (h : ¬ [',', '-'] <:+: j.ssid) : Apart ',' '-' j.front := by
  have haddress : Apart ',' '-' j.address :=
    apart_of_not_mem (Mac.not_mem_print (by decide) (by decide))
  have hchannel : Apart ',' '-' (',' :: j.channel) := by
    refine apart_cons.2 ⟨apart_of_not_mem fun hmem => ?_, ?_⟩
    · exact absurd (j.channel_digits _ hmem) (by decide)
    · rintro ⟨-, hhead⟩
      exact absurd (j.channel_digits _ (List.mem_of_mem_head? hhead)) (by decide)
  have hopening : Apart ',' '-' opening := apart_of_not_mem (by decide)
  have hname : Apart ',' '-' (opening ++ j.ssid) := by
    refine apart_append.2 ⟨hopening, apart_iff.2 h, ?_⟩
    rintro ⟨hlast, -⟩
    exact absurd hlast (by decide)
  -- the quotes keep the parts of the line apart
  have hquotes : Apart ',' '-' ((opening ++ j.ssid) ++ '"' :: ([','] ++ '"' :: (j.address ++
      '"' :: (',' :: j.channel)))) := by
    rw [apart_append_cons (by decide) (by decide), apart_append_cons (by decide) (by decide),
      apart_append_cons (by decide) (by decide)]
    exact ⟨hname, .singleton ',', haddress, hchannel⟩
  simpa [front] using hquotes

end Joined

/-! ### The queries -/

namespace Question

open Driver

def joinedSsid : Question String where
  note := "> current_ssid"
  command := "AT+CWJAP?"
  start := "+CWJAP:\""
  stop := "\""
  room := ssidCapacity
  read := some

def joinedBssid : Question Mac where
  note := "> current_bssid"
  command := "AT+CWJAP?"
  start := ",\""
  stop := "\","
  room := addressCapacity
  read := Mac.ofText?

def joinedRssi : Question Int where
  note := "> current_rssi"
  command := "AT+CWJAP?"
  start := ",-"
  stop := "\r\n"
  room := shortCapacity
  read := rssiOfText?

end Question

namespace Driver

theorem joinedSsid_eq : (joinedSsid : Attempt (Driver Bench) String) = Question.joinedSsid.ask := by
  have hread : (fun text : String => (orParse (some text) : Attempt (Driver Bench) String)) = pure := rfl
  unfold joinedSsid Question.ask
  show _ = (do
    logDebug "> current_ssid"
    let text ← query "AT+CWJAP?" "+CWJAP:\"" "\"" ssidCapacity
    orParse (some text))
  rw [hread, bind_pure]

variable {j : Joined} {d d₁ : Driver Bench}

/-- **The name is read whole**, whatever its characters are. -/
theorem exists_joinedSsid (h : Question.joinedSsid.Answered j.reply d d₁) :
    ∃ d', joinedSsid.run d = .ok (.ok (String.ofList j.ssid)) d' := by
  have hreply : j.reply = [] ++ utf8 Question.joinedSsid.start ++ utf8 (String.ofList j.ssid) ++ utf8 "\"" ++
      utf8 (String.ofList (',' :: '"' :: (j.address ++ '"' :: ',' :: (j.channel ++
        ',' :: '-' :: (decimalDigits j.level ++ Joined.ending))))) := by
    have hopening : utf8 Question.joinedSsid.start = utf8 (String.ofList Joined.opening) := by decide
    have hquote : utf8 "\"" = utf8 (String.ofList ['"']) := rfl
    rw [hopening, hquote, List.nil_append, ← utf8_append, ← utf8_append, ← utf8_append,
      ← String.ofList_append, ← String.ofList_append, ← String.ofList_append]
    simp [Joined.reply, Joined.line, Joined.front]
  have hleads : Question.joinedSsid.Leads [] := by decide +kernel
  rw [hreply] at h
  rw [joinedSsid_eq]
  exact hleads.exists_ask h (by decide) rfl (by decide) j.ssid_short j.ssid_printable j.ssid_unquoted rfl

/-- **A short field of the line between two tags of two bytes is read whole.** -/
theorem exists_ask_line {α : Type} {q : Question α} {x y u v : Char} (before field after : List Char)
    (h : q.Answered j.reply d d₁) (hline : j.line = before ++ x :: y :: (field ++ u :: v :: after))
    (hstart : utf8 q.start = [ascii x, ascii y]) (hstop : utf8 q.stop = [ascii u, ascii v])
    (hxy : x ≠ y) (huv : u ≠ v) (hbefore : Apart x y before) (hfield : Apart u v field)
    (hshort : field.length + 2 ≤ windowSize) : ∃ d', q.ask.run d = .ok (q.result field) d' := by
  have htext : j.line ++ Joined.ending =
      before ++ x :: y :: (field ++ u :: v :: (after ++ Joined.ending)) := by
    rw [hline]
    simp
  have hfeed : '\n' ∉ before ++ x :: y :: (field ++ [u]) := by
    intro hmem
    have hpart : before ++ x :: y :: (field ++ [u]) <+: j.line := ⟨v :: after, by rw [hline]; simp⟩
    have hprintable : Printable '\n' := j.printable_line (hpart.subset hmem)
    exact absurd hprintable (by decide)
  obtain ⟨d', hrun⟩ := h.exists_ask_apart before field (after ++ Joined.ending)
    (fun _ => j.ascii_of_mem) htext hstart hstop hxy huv hbefore hfield hfeed
  rw [Nat.sub_eq_zero_of_le hshort, List.drop_zero] at hrun
  exact ⟨d', hrun⟩

theorem joinedBssid_eq : (joinedBssid : Attempt (Driver Bench) Mac) = Question.joinedBssid.ask := rfl

/-- Up to a name without quotes, a comma and a quote are no neighbours. -/
theorem apart_opening_comma {name : List Char} (h : '"' ∉ name) :
    Apart ',' '"' (Joined.opening ++ name) := by
  have hopening : Apart ',' '"' Joined.opening := apart_of_not_mem (by decide)
  refine apart_append.2 ⟨hopening, apart_of_not_mem_right h, ?_⟩
  rintro ⟨hlast, -⟩
  exact absurd hlast (by decide)

/-- **The address is read** if the name does not end with a comma. -/
theorem exists_joinedBssid (h : Question.joinedBssid.Answered j.reply d d₁)
    (hcomma : j.ssid.getLast? ≠ some ',') :
    ∃ d', joinedBssid.run d = .ok (.ok ⟨j.octets.reverse⟩) d' := by
  have hlength : j.address.length = 17 := Mac.length_print _ _
  have hline : j.line = (Joined.opening ++ j.ssid ++ ['"']) ++ ',' :: '"' :: (j.address ++
      '"' :: ',' :: (j.channel ++ ',' :: '-' :: decimalDigits j.level)) := by
    simp [Joined.line, Joined.front]
  have hbefore : Apart ',' '"' (Joined.opening ++ j.ssid ++ ['"']) := by
    refine apart_append.2 ⟨apart_opening_comma j.ssid_unquoted, .singleton '"', ?_⟩
    rintro ⟨hlast, -⟩
    rw [List.getLast?_append, Option.mem_def, Option.or_eq_some_iff] at hlast
    rcases hlast with hlast | ⟨-, hlast⟩
    · exact hcomma hlast
    · exact absurd hlast (by decide)
  have haddress : Apart '"' ',' j.address :=
    apart_of_not_mem (Mac.not_mem_print (by decide) (by decide))
  have hshort : j.address.length + 2 ≤ windowSize := by rw [hlength]; decide
  have hroom : j.address.length ≤ addressCapacity := by rw [hlength]; decide
  have hread : Mac.ofText? (String.ofList j.address) = some ⟨j.octets.reverse⟩ := Mac.ofText?_print _ _
  obtain ⟨d', hrun⟩ := exists_ask_line _ _ _ h hline rfl rfl (by decide) (by decide)
    hbefore haddress hshort
  rw [Question.result_of_some (q := Question.joinedBssid) hroom hread] at hrun
  exact ⟨d', joinedBssid_eq ▸ hrun⟩

/-- **No address is read if the name ends with a comma.** The tag is made up of that comma and of the quote
behind the name, and a comma and a quote come before the address then. -/
theorem exists_joinedBssid_of_comma (h : Question.joinedBssid.Answered j.reply d d₁)
    (hcomma : j.ssid.getLast? = some ',') :
    ∃ d', joinedBssid.run d = .ok (.error .parse) d' := by
  obtain ⟨name, hname⟩ := List.getLast?_eq_some_iff.1 hcomma
  have hlength : (',' :: '"' :: j.address).length = 19 := congrArg (· + 2) (Mac.length_print _ _)
  have hline : j.line = (Joined.opening ++ name) ++ ',' :: '"' :: ((',' :: '"' :: j.address) ++
      '"' :: ',' :: (j.channel ++ ',' :: '-' :: decimalDigits j.level)) := by
    simp [Joined.line, Joined.front, hname]
  have hunquoted : '"' ∉ name := fun hmem => j.ssid_unquoted (by simp [hname, hmem])
  have hfield : Apart '"' ',' (',' :: '"' :: j.address) := by
    have hquote : '"' ∉ j.address := Mac.not_mem_print (by decide) (by decide)
    have hcomma : ',' ∉ j.address := Mac.not_mem_print (by decide) (by decide)
    refine apart_cons.2 ⟨apart_cons.2 ⟨apart_of_not_mem hquote, ?_⟩, ?_⟩
    · rintro ⟨-, hhead⟩
      exact hcomma (List.mem_of_mem_head? hhead)
    · rintro ⟨hne, -⟩
      exact absurd hne (by decide)
  have hshort : (',' :: '"' :: j.address).length + 2 ≤ windowSize := by rw [hlength]; decide
  have hroom : (',' :: '"' :: j.address).length ≤ addressCapacity := by rw [hlength]; decide
  have hread : Mac.ofText? (String.ofList (',' :: '"' :: j.address)) = none :=
    Mac.ofText?_eq_none (c := ',') (by simp) (by decide) (by decide) (by decide)
  obtain ⟨d', hrun⟩ := exists_ask_line _ _ _ h hline rfl rfl (by decide) (by decide)
    (apart_opening_comma hunquoted) hfield hshort
  rw [Question.result_of_none (q := Question.joinedBssid) hroom hread] at hrun
  exact ⟨d', joinedBssid_eq ▸ hrun⟩

theorem joinedRssi_eq : (joinedRssi : Attempt (Driver Bench) Int) = Question.joinedRssi.ask := rfl

/-- **The signal strength is what is read of `Joined.levelText`.** -/
theorem exists_joinedRssi (h : Question.joinedRssi.Answered j.reply d d₁) :
    ∃ r d', joinedRssi.run d = .ok r d' ∧ ∀ n, r = .ok n ↔ rssiOfText? j.levelText = some n := by
  have hminus : [',', '-'] <:+: j.line := ⟨j.front, decimalDigits j.level, by simp [Joined.line]⟩
  obtain ⟨before, hbefore, hline⟩ := exists_eq_behindFirst hminus
  have hmem {c : Char} (hc : c ∈ before ++ ',' :: '-' :: behindFirst ',' '-' j.line) : Printable c :=
    j.printable_line (hline ▸ hc)
  -- the field goes up to the end of the line, as the line can be printed
  have hfield : Apart '\r' '\n' (behindFirst ',' '-' j.line) := by
    refine apart_of_not_mem fun hc => ?_
    have hprintable : Printable '\r' := hmem (by simp [hc])
    exact absurd hprintable (by decide)
  have hfeed : '\n' ∉ before ++ ',' :: '-' :: (behindFirst ',' '-' j.line ++ ['\r']) := by
    intro hc
    have hprintable : Printable '\n' := by
      refine hmem ?_
      simpa using hc
    exact absurd hprintable (by decide)
  have htext : j.line ++ Joined.ending = before ++ ',' :: '-' :: (behindFirst ',' '-' j.line ++
      '\r' :: '\n' :: ['\r', '\n', 'O', 'K', '\r', '\n']) := by
    have happend := congrArg (· ++ Joined.ending) hline
    simpa [Joined.ending] using happend
  obtain ⟨d', hrun⟩ := h.exists_ask_apart before (behindFirst ',' '-' j.line) _
    (fun _ => j.ascii_of_mem) htext rfl rfl (by decide) (by decide) hbefore hfield hfeed
  refine ⟨_, d', joinedRssi_eq ▸ hrun, fun n => ?_⟩
  have hread : Question.joinedRssi.read = rssiOfText? := rfl
  have hroom : Question.joinedRssi.room = shortCapacity := rfl
  rw [Question.result_eq_ok_iff, hread, hroom, Joined.levelText]

/-- **The signal strength is read right behind a name without `,-`**, if it has at most nine digits. -/
theorem rssiOfText?_levelText (h : ¬ [',', '-'] <:+: j.ssid) :
    rssiOfText? j.levelText = some (-(j.level : Int)) ↔ j.level < 10 ^ 9 := by
  have hbehind : behindFirst ',' '-' j.line = decimalDigits j.level :=
    behindFirst_append (by decide) (Joined.apart_front h)
  have hpos : 0 < (decimalDigits j.level).length := List.length_pos_iff.2 (decimalDigits_ne_nil j.level)
  let kept := ((decimalDigits j.level).drop ((decimalDigits j.level).length + 2 - windowSize)).take
    shortCapacity
  have hlevel : j.levelText = String.ofList kept := by
    rw [Joined.levelText, hbehind]
  have hdigits : ∀ c ∈ kept, c.isDigit = true := fun c hc =>
    isDigit_of_mem_decimalDigits (List.mem_of_mem_drop (List.mem_of_mem_take hc))
  have hwindow : windowSize = 32 := rfl
  have hcapacity : shortCapacity = 9 := rfl
  have hlength : kept.length =
      min 9 ((decimalDigits j.level).length - ((decimalDigits j.level).length + 2 - 32)) := by
    rw [List.length_take, List.length_drop, hwindow, hcapacity]
  have hne : kept ≠ [] := List.length_pos_iff.1 (by omega)
  have hshort : kept.length ≤ 9 := by omega
  rw [hlevel, rssiOfText?_digits hdigits hne hshort, Option.some_inj, Int.neg_inj, Int.natCast_inj]
  constructor
  · intro hvalue
    rw [← hvalue]
    exact (ofDigitChars_lt hdigits).trans_le (Nat.pow_le_pow_right (by decide) hshort)
  · -- so short a number is not cut, neither by the window nor to the room for it
    intro hlt
    have hfew : (decimalDigits j.level).length ≤ 9 := Nat.toDigits_length 10 j.level 9 (by decide) hlt
    have hfits : (decimalDigits j.level).length + 2 - windowSize = 0 := by omega
    have hwhole : kept = decimalDigits j.level := by
      show (List.drop _ _).take _ = _
      rw [hfits, List.drop_zero, hcapacity, List.take_of_length_le hfew]
    rw [hwhole]
    exact Nat.ofDigitChars_ten_toDigits

/-- **What is returned for the network that was joined.** Its name always is. Its address is returned exactly
if the name does not end with a comma, and else none is. The signal strength is what is read of
`Joined.levelText`; if no `,-` is in the name, this is right exactly if it has at most nine digits. -/
theorem joined_read (j : Joined) (d d₁ : Driver Bench) :
    (Question.joinedSsid.Answered j.reply d d₁ →
      ∃ d', joinedSsid.run d = .ok (.ok (String.ofList j.ssid)) d') ∧
    (Question.joinedBssid.Answered j.reply d d₁ → ∃ r d', joinedBssid.run d = .ok r d' ∧
      (r = .ok ⟨j.octets.reverse⟩ ↔ j.ssid.getLast? ≠ some ',') ∧
      (r = .error .parse ↔ j.ssid.getLast? = some ',')) ∧
    (Question.joinedRssi.Answered j.reply d d₁ → ∃ r d', joinedRssi.run d = .ok r d' ∧
      (∀ n, r = .ok n ↔ rssiOfText? j.levelText = some n) ∧
      (¬ [',', '-'] <:+: j.ssid → (r = .ok (-(j.level : Int)) ↔ j.level < 10 ^ 9))) := by
  refine ⟨exists_joinedSsid, fun h => ?_, fun h => ?_⟩
  · by_cases hcomma : j.ssid.getLast? = some ','
    · obtain ⟨d', hrun⟩ := exists_joinedBssid_of_comma h hcomma
      exact ⟨_, d', hrun, by simp [hcomma], by simp [hcomma]⟩
    · obtain ⟨d', hrun⟩ := exists_joinedBssid h hcomma
      exact ⟨_, d', hrun, by simp [hcomma], by simp [hcomma]⟩
  · obtain ⟨r, d', hrun, hread⟩ := exists_joinedRssi h
    refine ⟨r, d', hrun, hread, fun hname => ?_⟩
    rw [hread, rssiOfText?_levelText hname]

/-- A network whose name has no comma. -/
def quietName : Joined where
  ssid := "cafe free".toList
  octets := #v[0x1a, 0xfe, 0x34, 0x00, 0x00, 0x01]
  upper _ := (false, false)
  channel := "11".toList
  level := 67
  ssid_short := by decide
  ssid_printable := Printable.of_all (by decide)
  ssid_unquoted := by decide
  channel_digits := List.all_eq_true.1 (by decide)

/-- A network whose name has both of the tags in it. -/
def taggedName : Joined where
  ssid := "a,-5,".toList
  octets := #v[0xa0, 0xb1, 0xc2, 0xd3, 0xe4, 0xf5]
  upper _ := (false, false)
  channel := "6".toList
  level := 58
  ssid_short := by decide
  ssid_printable := Printable.of_all (by decide)
  ssid_unquoted := by decide
  channel_digits := List.all_eq_true.1 (by decide)

/-- A driver whose module has joined a network. -/
def member (j : Joined) : Driver Bench where
  engine := .sayingBack j.reply

theorem joined_read_quietName :
    (∃ d', joinedSsid.run (member quietName) = .ok (.ok "cafe free") d') ∧
    (∃ d', joinedBssid.run (member quietName) = .ok (.ok ⟨quietName.octets.reverse⟩) d') ∧
    ∃ d', joinedRssi.run (member quietName) = .ok (.ok (-67)) d' := by
  obtain ⟨d₁, hssid⟩ := Question.exists_answered (q := Question.joinedSsid) (d := member quietName)
    quietName.reply (by decide +kernel) (by decide +kernel)
  obtain ⟨d₂, hbssid⟩ := Question.exists_answered (q := Question.joinedBssid) (d := member quietName)
    quietName.reply (by decide +kernel) (by decide +kernel)
  obtain ⟨d₃, hrssi⟩ := Question.exists_answered (q := Question.joinedRssi) (d := member quietName)
    quietName.reply (by decide +kernel) (by decide +kernel)
  obtain ⟨r, d', hrun, hwhole, -⟩ := (joined_read quietName _ d₂).2.1 hbssid
  obtain ⟨r', d'', hrun', -, hlevel⟩ := (joined_read quietName _ d₃).2.2 hrssi
  rw [hwhole.2 (by decide)] at hrun
  rw [(hlevel (by decide)).2 (by decide)] at hrun'
  exact ⟨(joined_read quietName _ d₁).1 hssid, ⟨d', hrun⟩, d'', hrun'⟩

/-- **Of a network whose name has both of the tags in it**, neither the address nor the signal strength is
returned. The whole response waits each time, and there is time to read it. -/
theorem joined_read_taggedName :
    (∃ d₁ d', Question.joinedBssid.Answered taggedName.reply (member taggedName) d₁ ∧
      joinedBssid.run (member taggedName) = .ok (.error .parse) d') ∧
    ∃ d₁ d', Question.joinedRssi.Answered taggedName.reply (member taggedName) d₁ ∧
      joinedRssi.run (member taggedName) = .ok (.ok (-5)) d' ∧
      (-5 : Int) ≠ -(taggedName.level : Int) := by
  obtain ⟨d₁, hbssid⟩ := Question.exists_answered (q := Question.joinedBssid) (d := member taggedName)
    taggedName.reply (by decide +kernel) (by decide +kernel)
  obtain ⟨d₂, hrssi⟩ := Question.exists_answered (q := Question.joinedRssi) (d := member taggedName)
    taggedName.reply (by decide +kernel) (by decide +kernel)
  have hnone : value? joinedBssid.run (member taggedName) = some (.error .parse) := by decide +kernel
  have hwrong : value? joinedRssi.run (member taggedName) = some (.ok (-5)) := by decide +kernel
  obtain ⟨d', hrun⟩ := value?_eq_some.1 hnone
  obtain ⟨d'', hrun'⟩ := value?_eq_some.1 hwrong
  exact ⟨⟨d₁, d', hbssid, hrun⟩, d₂, d'', hrssi, hrun', by decide⟩

end Driver

end EspWifi
