import EspWifi.Proofs.Modem.ScanEnd

/-!
# Genuine networks

An entry that the module has printed whole is kept as it was printed, if each of its fields fits and comes in
time. What else is kept is made up of whatever came, and need not be a network that the module has told of.

* `Entry`: an entry as the module prints it; `Network.PrintedIn`: the bytes hold an entry of this network.
* `Place.Faithful`: an entry that was read as it was printed.
* `Place.faithful_iff`: **the module has printed a whole entry there, and no read of it was cut short.**
* `Driver.listNetworks_genuine`: **when all networks that are kept are genuine.**
-/

namespace EspWifi

open Run Numeral

/-! ### Entries -/

/-- **An entry of a list**, up to the signal strength. Its numbers may be spelled in any way. -/
structure Entry where
  code : Spelling
  ssid : String
  level : Spelling

namespace Entry

variable (x : Entry)

/-- The fields, each of them as a read takes it. -/
def reading : Reading where
  code := x.code.bytes
  opening := [ascii ',', ascii '"']
  name := utf8 x.ssid ++ [ascii '"']
  comma := [ascii ',']
  level := x.level.bytes

/-- **The bytes begin with this entry**, whose last number ends there. -/
def Begins (w : Bytes) : Prop :=
  ∃ rest, w = x.reading.bytes ++ rest ∧ ∀ b ∈ rest.head?, isDigitByte b = false

/-- It is an entry of this network. -/
def Shows (n : Network) : Prop :=
  x.code.value = n.encryptionCode.toNat ∧ x.ssid = n.ssid ∧ x.level.value = n.rssi

/-- **There is room for the fields**: for the code in a byte, for the name in the window, with the quote
behind it, and for the signal strength in 32 bits. The name ends at its first quote. -/
structure Fits : Prop where
  code : 0 ≤ x.code.value ∧ x.code.value ≤ 255
  ssid_short : x.ssid.utf8ByteSize ≤ ssidCapacity
  ssid_unquoted : '"' ∉ x.ssid.toList
  level : int32Min ≤ x.level.value ∧ x.level.value ≤ int32Max

end Entry

/-- **The bytes hold an entry of this network.** -/
def Network.PrintedIn (n : Network) (w : Bytes) : Prop :=
  ∃ x : Entry, x.Shows n ∧ ∃ before after, w = before ++ (Driver.entryStart ++ after) ∧ x.Begins after

namespace Entry

variable {x : Entry} {rest : Bytes}

theorem Fits.parse_code (h : x.Fits) (hrest : ∀ b ∈ rest.head?, isDigitByte b = false) :
    parse (x.code.bytes ++ rest) = (some x.code.value, rest) := by
  have hrange := h.code
  show parse ([] ++ x.code.bytes ++ rest) = _
  refine parse_spelling x.code nofun hrest ?_ ?_
  · unfold int32Min
    omega
  · unfold int32Max
    omega

theorem Fits.parse_level (h : x.Fits) (hrest : ∀ b ∈ rest.head?, isDigitByte b = false) :
    parse (x.level.bytes ++ rest) = (some x.level.value, rest) := by
  show parse ([] ++ x.level.bytes ++ rest) = _
  exact parse_spelling x.level nofun hrest h.level.1 h.level.2

/-- The code ends at the comma behind it. -/
theorem head?_behind : ∀ b ∈ (x.reading.behind ++ rest).head?, isDigitByte b = false := by
  rintro _ ⟨⟩
  decide

theorem Fits.decided_name (h : x.Fits) :
    Scan.Decided (some (utf8 "\"")) false x.reading.name .found :=
  Listing.decided_name h.ssid_unquoted

/-- **An entry that is read as it was printed is kept as it was printed.** -/
theorem Fits.shows (h : x.Fits) : x.Shows x.reading.network := by
  have hcode : parse (x.code.bytes ++ []) = (some x.code.value, []) := h.parse_code nofun
  have hlevel : parse (x.level.bytes ++ []) = (some x.level.value, []) := h.parse_level nofun
  rw [List.append_nil] at hcode hlevel
  refine ⟨?_, ?_, ?_⟩
  · obtain ⟨code, hvalue⟩ : ∃ code : UInt8, x.code.value = (code.toNat : Int) := by
      have hrange := h.code
      refine ⟨x.code.value.toNat.toUInt8, ?_⟩
      rw [Nat.toUInt8, UInt8.toNat_ofNat', Nat.mod_eq_of_lt (by omega)]
      omega
    show x.code.value = ((Packet.byte? ((parse x.code.bytes).1.getD 0)).getD 0).toNat
    rw [hcode, Option.getD_some, hvalue, Listing.byte?_code, Option.getD_some]
  · have hfound : Scan.outcome (some (utf8 "\"")) false x.reading.name = .found :=
      h.decided_name.outcome_eq
    show x.ssid = x.reading.ssid
    rw [Reading.ssid, if_pos hfound]
    show x.ssid = ((Window.last (utf8 x.ssid ++ [ascii '"']) : Window windowSize).extract
      ssidCapacity 1).toOption.getD ""
    rw [Listing.extract_name h.ssid_short]
    rfl
  · show x.level.value = (parse x.level.bytes).1.getD 0
    rw [hlevel, Option.getD_some]

end Entry

/-! ### Places -/

namespace Place

variable (p : Place)

/-- **The entry was read as it was printed.** -/
def Faithful : Prop :=
  ∃ x : Entry, x.Fits ∧ p.reading = x.reading ∧ ∀ b ∈ p.rest.head?, isDigitByte b = false

/-- **No read of the entry was cut short** by its timeout: each scan has found what it looked for, and each
number has ended where it would have ended with all that came later at hand. -/
structure Uncut : Prop where
  code : (parse (p.reading.code ++ (p.reading.behind ++ p.rest))).2 = p.reading.behind ++ p.rest
  opening : Scan.outcome (some (utf8 "\"")) true p.reading.opening ≠ .timedOut
  name : Scan.outcome (some (utf8 "\"")) false p.reading.name ≠ .timedOut
  comma : Scan.outcome (some (utf8 ",")) true p.reading.comma ≠ .timedOut
  level : (parse (p.reading.level ++ p.rest)).2 = p.rest

variable {p}

/-- A scan that was not cut short has taken the bytes that are decided first. -/
theorem taken_unique {tag : Option Bytes} {known : Bool} {c c' w w' : Bytes} {s : Scan}
    (htaken : Scan.Taken tag known c) (huncut : Scan.outcome tag known c ≠ .timedOut)
    (hdecided : Scan.Decided tag known c' s) (h : c ++ w = c' ++ w') : c = c' ∧ w = w' := by
  have hc : Scan.Decided tag known c (Scan.outcome tag known c) :=
    htaken.decided ((Scan.outcome_eq_iff huncut).1 rfl)
  obtain rfl : c = c' :=
    hc.bytes_unique hdecided (List.prefix_append c w) (h ▸ List.prefix_append c' w')
  exact ⟨rfl, List.append_cancel_left h⟩

/-- **An entry is read as it was printed** exactly if a whole entry, with fields for which there is room, was
printed there, and no read of it was cut short. -/
theorem faithful_iff (h : p.reading.Taken) :
    p.Faithful ↔ (∃ x : Entry, x.Fits ∧ x.Begins (p.reading.bytes ++ p.rest)) ∧ p.Uncut := by
  obtain ⟨reading, rest⟩ := p
  constructor
  · rintro ⟨x, hfits, hreading, hrest⟩
    obtain rfl : reading = x.reading := hreading
    refine ⟨⟨x, hfits, rest, rfl, hrest⟩, ?_, ?_, ?_, ?_, ?_⟩
    · exact congrArg Prod.snd (hfits.parse_code Entry.head?_behind)
    · exact fun hlate => nomatch hlate.symm.trans Listing.decided_opening.outcome_eq
    · exact fun hlate => nomatch hlate.symm.trans hfits.decided_name.outcome_eq
    · exact fun hlate => nomatch hlate.symm.trans Listing.decided_comma.outcome_eq
    · exact congrArg Prod.snd (hfits.parse_level hrest)
  · rintro ⟨⟨x, hfits, rest', hprinted, hrest'⟩, huncut⟩
    have hcode : parse (x.code.bytes ++ (x.reading.behind ++ rest')) =
        (some x.code.value, x.reading.behind ++ rest') := hfits.parse_code x.head?_behind
    unfold Reading.bytes at hprinted
    rw [List.append_assoc, List.append_assoc] at hprinted
    -- the fields are told apart one after the other
    have hbehind : reading.behind ++ rest = x.reading.behind ++ rest' := by
      have hend := huncut.code
      rw [hprinted] at hend
      exact hend.symm.trans (congrArg Prod.snd hcode)
    have hcodes : reading.code = x.reading.code := by
      rw [hbehind] at hprinted
      exact List.append_cancel_right hprinted
    unfold Reading.behind at hbehind
    simp only [List.append_assoc] at hbehind
    obtain ⟨hopening, hbehind⟩ :=
      taken_unique h.opening huncut.opening Listing.decided_opening hbehind
    obtain ⟨hname, hbehind⟩ := taken_unique h.name huncut.name hfits.decided_name hbehind
    obtain ⟨hcomma, hbehind⟩ := taken_unique h.comma huncut.comma Listing.decided_comma hbehind
    have hrest : rest = rest' := by
      have hend := huncut.level
      rw [hbehind] at hend
      exact hend.symm.trans (congrArg Prod.snd (hfits.parse_level hrest'))
    subst hrest
    have hlevel : reading.level = x.reading.level := List.append_cancel_right hbehind
    refine ⟨x, hfits, ?_, hrest'⟩
    exact Reading.ext hcodes hopening hname hcomma hlevel

/-- **What was read as it was printed is genuine.** -/
theorem Faithful.printedIn (h : p.Faithful) {received before after left : Bytes}
    (hreceived : received = before ++ (Driver.entryStart ++ (p.reading.bytes ++ after)))
    (hrest : p.rest = after ++ left) : p.reading.network.PrintedIn received := by
  obtain ⟨x, hfits, hreading, hend⟩ := h
  rw [hreading] at hreceived ⊢
  refine ⟨x, hfits.shows, before, _, hreceived, after, rfl, fun b hb => hend b ?_⟩
  rw [hrest, List.head?_append, hb]
  rfl

end Place

/-- **Every entry stands where it was read**, behind the start of an entry. -/
theorem Heard.received {room : Nat} {w left : Bytes} {xs : List Place} {s : Scan}
    (h : Heard room w xs s left) :
    ∃ received, w = received ++ left ∧ ∀ p ∈ xs, p.reading.Taken ∧ ∃ before after,
      received = before ++ (Driver.entryStart ++ (p.reading.bytes ++ after)) ∧ p.rest = after ++ left := by
  induction h with
  | full => exact ⟨[], rfl, nofun⟩
  | @ended room c left taken unfound => exact ⟨c, rfl, nofun⟩
  | @entry room lead rest left x later s start taken tail ih =>
    obtain ⟨received, rfl, hlater⟩ := ih
    obtain ⟨_, ⟨⟩, -, -, passed, rfl⟩ := Scan.of_eq_found_iff.1 start.verdict
    refine ⟨passed ++ Driver.entryStart ++ (x.bytes ++ received), by simp, ?_⟩
    rw [List.forall_mem_cons]
    refine ⟨⟨taken, passed, received, by simp, rfl⟩, fun p hp => ?_⟩
    obtain ⟨htaken, before, after, hreceived, hrest⟩ := hlater p hp
    refine ⟨htaken, passed ++ (Driver.entryStart ++ (x.bytes ++ before)), after, ?_, hrest⟩
    rw [hreceived]
    simp

namespace Driver

/-- **When the networks that are kept are genuine.** A scan of the networks returns if the clock passes its
timeouts, and it keeps what it has read of the entries. An entry is read as it was printed exactly if a
whole entry, with fields for which there is room, was printed there, and no read of it was cut short; what
is kept of it is genuine then. So all networks that are kept are genuine exactly if those are that were
not read as they were printed, which takes another entry that says by chance what was made up. -/
theorem listNetworks_genuine (d : Driver Bench) :
    (d.PassesScan → ∃ r d', listNetworks.run d = .ok r d') ∧
    ∀ r d', listNetworks.run d = .ok r d' → d'.networks = [] ∨
      ∃ d₁ xs s received, askForList.run d = .ok (.ok ()) d₁ ∧
        d₁.engine.device.stream = received ++ d'.engine.device.stream ∧
        Heard maxNetworks d₁.engine.device.stream xs s d'.engine.device.stream ∧
        d'.networks = xs.map (·.reading.network) ∧
        (∀ p ∈ xs, (p.Faithful ↔
            (∃ x : Entry, x.Fits ∧ x.Begins (p.reading.bytes ++ p.rest)) ∧ p.Uncut) ∧
          (p.Faithful → p.reading.network.PrintedIn received)) ∧
        ((∀ n ∈ d'.networks, n.PrintedIn received) ↔
          ∀ p ∈ xs, ¬ p.Faithful → p.reading.network.PrintedIn received) := by
  refine ⟨fun h => h.exists_listNetworks, fun r d' hrun => ?_⟩
  cases listNetworks_scanned hrun with
  | unasked asked kept => exact .inl kept
  | @heard d₁ _ xs s asked hheard kept =>
    obtain ⟨received, hstream, hplaces⟩ := hheard.received
    have hgenuine : ∀ p ∈ xs, p.Faithful → p.reading.network.PrintedIn received := by
      intro p hp hfaithful
      obtain ⟨-, before, after, hreceived, hrest⟩ := hplaces p hp
      exact hfaithful.printedIn hreceived hrest
    refine .inr ⟨d₁, xs, s, received, asked, hstream, hheard, kept,
      fun p hp => ⟨?_, hgenuine p hp⟩, ?_⟩
    · exact Place.faithful_iff (hplaces p hp).1
    · rw [kept, List.forall_mem_map]
      constructor
      · exact fun h p hp _ => h p hp
      · intro h p hp
        by_cases hfaithful : p.Faithful
        · exact hgenuine p hp hfaithful
        · exact h p hp hfaithful

theorem listNetworks_genuine_oneNetwork :
    (sayingBack oneNetwork).PassesScan ∧ ∃ (d₁ d' : Driver Bench) (xs : List Place) (received : Bytes),
      listNetworks.run (sayingBack oneNetwork) = .ok (.ok 1) d' ∧
      d₁.engine.device.stream = received ++ d'.engine.device.stream ∧
      d'.networks = [⟨"home", -58, 3⟩] ∧ d'.networks = xs.map (·.reading.network) ∧
      ((∀ n ∈ d'.networks, n.PrintedIn received) ↔
        ∀ p ∈ xs, ¬ p.Faithful → p.reading.network.PrintedIn received) := by
  have hshown : shown? listNetworks.run (fun r d => (r, d.networks)) (sayingBack oneNetwork) =
      some (.ok 1, [⟨"home", -58, 3⟩]) := by decide +kernel
  obtain ⟨_, d', hrun, hd'⟩ := shown?_eq_some.1 hshown
  obtain ⟨rfl, hnetworks⟩ := Prod.mk.inj hd'
  rcases (listNetworks_genuine (sayingBack oneNetwork)).2 _ _ hrun with hnone | hread
  · rw [hnetworks] at hnone
    cases hnone
  · obtain ⟨d₁, xs, s, received, -, hstream, -, hkept, -, hgenuine⟩ := hread
    exact ⟨passesScan_sayingBack _, d₁, d', xs, received, hrun, hstream, hnetworks, hkept, hgenuine⟩

/-! ### Lists that break off -/

section

variable {cut : Prop} {e : Engine Bench} {d : Driver Bench} {timeout : UInt32}

/-- A scan of nothing times out. -/
theorem wp_awaitTag_nothing {tag : Option Bytes} {known : Bool} {Q : Scan → Engine Bench → Prop}
    (h : e.device.Holds []) (hQ : ∀ (b : Bench) (window : Window windowSize), b.Holds [] →
      Q .timedOut { e with device := b, window := window }) :
    wp cut (Engine.awaitTag timeout tag known) Q e := by
  refine Engine.wp_awaitTag h (fun c x rest s b hw _ _ _ => ?_) fun c rest b hw _ _ hb => ?_
  · simp at hw
  · obtain ⟨rfl, rfl⟩ := List.append_eq_nil_iff.1 hw.symm
    exact hQ b _ hb

/-- A number of which nothing comes counts as zero. -/
theorem wp_intOrZero_nothing {Q : Int → Engine Bench → Prop} (h : e.device.Holds [])
    (hQ : ∀ b : Bench, b.Holds [] → Q 0 { e with device := b }) : wp cut intOrZero Q e := by
  unfold intOrZero
  rw [wp_bind]
  exact Engine.wp_readInt h fun b hb => hQ b hb

/-- **Of an entry of which nothing comes, a network without a name is kept.** -/
theorem wp_readEntry_nothing {Q : Network → Engine Bench → Prop} (h : e.device.Holds [])
    (hQ : ∀ (b : Bench) (window : Window windowSize), b.Holds [] →
      Q ⟨"", 0, 0⟩ { e with device := b, window := window }) :
    wp cut (readEntry timeout) Q e := by
  unfold readEntry
  rw [wp_bind]
  refine wp_intOrZero_nothing h fun b₁ h₁ => ?_
  rw [wp_bind]
  refine wp_awaitTag_nothing h₁ fun b₂ _ h₂ => ?_
  rw [wp_bind]
  refine wp_awaitTag_nothing h₂ fun b₃ _ h₃ => ?_
  simp only [wp_bind]
  refine wp_awaitTag_nothing h₃ fun b₄ _ h₄ => ?_
  exact wp_intOrZero_nothing h₄ fun b₅ h₅ => hQ b₅ _ h₅

/-- A round that finds nothing behind the start of an entry makes one up. -/
theorem wp_readRound_nothing (h : d.engine.device.Holds []) (hroom : d.networks.length + 1 < maxNetworks) :
    wp cut (Listing.readRound timeout .found) (afterRound
      (fun s d' => s = .timedOut ∧ d'.engine.device.Holds [] ∧
        d'.networks = d.networks ++ [⟨"", 0, 0⟩])
      (fun _ _ => False)) d := by
  have hlength (n : Network) : (d.networks ++ [n]).length = d.networks.length + 1 := List.length_append
  simp only [Listing.readRound, wp_bind, wp_onEngine]
  refine wp_readEntry_nothing h fun b₁ _ h₁ => ?_
  rw [wp_modify, wp_get, wp_ite, hlength, if_neg (by omega), wp_bind, wp_onEngine]
  exact wp_awaitTag_nothing h₁ fun b₂ _ h₂ => ⟨rfl, h₂, rfl⟩

/-- A round reads an entry as it was printed, up to the start of the next one. -/
theorem wp_readRound_start {l : Listing} (h : d.engine.device.Holds (l.fields ++ (l.passed ++ entryStart)))
    (hroom : d.networks.length + 1 < maxNetworks) (htime : 212 < timeout.toNat) :
    wp cut (Listing.readRound timeout .found) (afterRound
      (fun s d' => s = .found ∧ d'.engine.device.Holds [] ∧ d'.networks = d.networks ++ [l.network])
      (fun _ _ => False)) d := by
  have hcapacity : ssidCapacity = 31 := rfl
  have hlength : (d.networks ++ [l.network]).length = d.networks.length + 1 := List.length_append
  have hnext : (l.passed ++ entryStart).length < timeout.toNat := by
    have hpassed := l.length_passed_le
    have hstart : entryStart.length = 8 := by decide
    rw [List.length_append, hstart]
    omega
  simp only [Listing.readRound, wp_bind, wp_onEngine]
  refine Listing.wp_readEntry h (by omega) fun b₁ _ h₁ => ?_
  rw [wp_modify, wp_get, wp_ite, hlength, if_neg (by omega), wp_bind, wp_onEngine]
  rw [← List.append_nil (l.passed ++ entryStart)] at h₁
  exact Engine.wp_awaitTag_holds h₁ (l.decided_lead [l]) hnext fun b₂ h₂ => ⟨rfl, h₂, rfl⟩

/-- **A list that breaks off behind the start of an entry** has that entry for a network without a name. -/
theorem wp_readList_brokenOff {l : Listing} (h : d.engine.device.Holds (l.line ++ entryStart))
    (hnetworks : d.networks = []) (htimeouts : d.engine.timeouts = {}) :
    Attempt.wp cut readList (fun _ _ => False) (fun f d' => f = .timeout ∧
      d'.networks = [l.network, ⟨"", 0, 0⟩] ∧ d'.engine.device.Holds []) d := by
  have hrounds : maxNetworks + 1 = 8 + 1 + 1 + 1 := rfl
  rw [Listing.line_eq, List.append_assoc, List.append_assoc] at h
  unfold readList timeouts
  simp only [Attempt.wp_bind, Attempt.wp_lift, wp_bind, wp_get, wp_pure, wp_onEngine, htimeouts]
  have hstart : (Listing.lead [l]).length < 10000 := (Listing.length_lead_le [l]).trans_lt (by decide)
  refine Engine.wp_awaitTag_holds h (Listing.decided_first [l]) hstart fun b₁ h₁ => ?_
  -- the first round reads the entry, the second one makes one up, and in the third one the list is over
  rw [Listing.readEntries_eq, hrounds, wp_loop_succ]
  refine wp_mono (wp_readRound_start h₁ (by rw [hnetworks]; decide) (by decide)) ?_
  rintro (s | s) d₂ hround
  case finish => exact hround.elim
  obtain ⟨rfl, h₂, hkept₂⟩ := hround
  rw [afterRound_again, wp_loop_succ]
  have hroom : d₂.networks.length + 1 < maxNetworks := by
    simp [hkept₂, hnetworks, maxNetworks]
  refine wp_mono (wp_readRound_nothing h₂ hroom) ?_
  rintro (s | s) d₃ hround
  case finish => exact hround.elim
  obtain ⟨rfl, h₃, hkept₃⟩ := hround
  rw [afterRound_again, wp_loop_succ]
  exact ⟨rfl, by rw [hkept₃, hkept₂, hnetworks]; rfl, h₃⟩

/-- **A list that breaks off is an error, and it leaves a network that nobody has told of.** -/
theorem exists_listNetworks_of_brokenOff {d₁ : Driver Bench} {l : Listing}
    (hasked : askForList.run d = .ok (.ok ()) d₁)
    (h : d₁.engine.device.Holds (l.line ++ entryStart)) (htimeouts : d₁.engine.timeouts = {}) :
    ∃ d', listNetworks.run d = .ok (.error .timeout) d' ∧ d'.networks = [l.network, ⟨"", 0, 0⟩] ∧
      d'.engine.device.stream = [] := by
  have hask : wp True askForList.run _ d := wp_askForList Bench.ledger d
  have hnetworks : d₁.networks = [] := (wp_of_ok hask hasked).1
  have hread : Attempt.wp False listNetworks (fun _ _ => False) (fun f d' => f = .timeout ∧
      d'.networks = [l.network, ⟨"", 0, 0⟩] ∧ d'.engine.device.Holds []) d := by
    rw [listNetworks_eq, Attempt.wp_bind]
    exact (wp_iff_of_ok hasked).2 (wp_readList_brokenOff h hnetworks htimeouts)
  obtain ⟨r, d', hrun, hr⟩ := wp_false_iff.1 hread
  cases r with
  | ok n => exact hr.elim
  | error f =>
    obtain ⟨rfl, hkept, hnothing⟩ := hr
    exact ⟨d', hrun, hkept, hnothing.stream⟩

end

/-- A network in reach. -/
def home : Listing where
  encryption := 3
  ssid := "home"
  rssi := -58
  others := utf8 "\"a0:b1:c2:d3:e4:f5\",6"
  ssid_short := by decide
  ssid_unquoted := by decide
  rssi_range := by decide
  others_short := by decide
  others_untagged := by
    intro t
    cases t <;> decide
  others_single := by decide

/-- **A network that the module has never told of.** It sends one entry and the start of another one, and
nothing after that; a network without a name is kept beside the one that was found. -/
theorem listNetworks_brokenOff :
    ∃ d₁ d', askForList.run (sayingBack (home.line ++ entryStart)) = .ok (.ok ()) d₁ ∧
      d₁.engine.device.stream = home.line ++ entryStart ∧
      listNetworks.run (sayingBack (home.line ++ entryStart)) = .ok (.error .timeout) d' ∧
      d'.engine.device.stream = [] ∧ d'.networks = [⟨"home", -58, 3⟩, ⟨"", 0, 0⟩] ∧
      ¬ (⟨"", 0, 0⟩ : Network).PrintedIn (home.line ++ entryStart) := by
  have hshown : shown? askForList.run (fun r d => (r, decide (d.engine.device.rx = home.line ++ entryStart ∧
      d.engine.device.arrivals.entries = [] ∧ d.engine.device.step = 1 ∧ d.engine.timeouts = {})))
      (sayingBack (home.line ++ entryStart)) = some (.ok (), true) := by
    decide +kernel
  obtain ⟨_, d₁, hasked, hd₁⟩ := shown?_eq_some.1 hshown
  obtain ⟨rfl, hlast⟩ := Prod.mk.inj hd₁
  obtain ⟨hrx, harrivals, hstep, htimeouts⟩ := of_decide_eq_true hlast
  have hholds : d₁.engine.device.Holds (home.line ++ entryStart) :=
    ⟨hrx, congrArg Schedule.mk harrivals, hstep⟩
  obtain ⟨d', hrun, hkept, hstream⟩ := exists_listNetworks_of_brokenOff hasked hholds htimeouts
  refine ⟨d₁, d', hasked, hholds.stream, hrun, hstream, hkept, ?_⟩
  -- no entry in these bytes is without a name
  rintro ⟨x, ⟨-, hssid, -⟩, before, after, hprinted, rest, rfl, -⟩
  have hempty : utf8 x.ssid = [] := by
    rw [hssid]
    rfl
  have hinside : [ascii ',', ascii '"', ascii '"', ascii ','] <:+: home.line ++ entryStart := by
    refine ⟨before ++ (entryStart ++ x.code.bytes), x.level.bytes ++ rest, ?_⟩
    rw [hprinted]
    simp [Entry.reading, Reading.bytes, Reading.behind, hempty]
  exact absurd hinside (by decide)

end Driver

end EspWifi
