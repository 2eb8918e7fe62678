import EspWifi.Modem.Scan
import EspWifi.Proofs.At.Lines
import EspWifi.Proofs.At.Spelling
import EspWifi.Proofs.At.Waiting
import EspWifi.Proofs.Text.LineEnds

/-!
# Lists of networks

The module prints the networks in reach as a list of entries, one on each line, and a tag that ends it.
The name of a network may hold what looks like a tag or like the next entry: it is read up to its quote.

* `Listing`, `Listing.print`: an entry, and a list as the module prints it.
* `Listing.wp_readEntry`: an entry is read as it was printed.
* `Listing.decided_lead`: a scan for the next entry ends where that begins, or at the end of the list.
* `Driver.listNetworks_print`: **a list is read as it was printed**, as far as there is room for it.
-/

namespace EspWifi

open Run Numeral

/-- **An entry of a list of networks.** -/
structure Listing where
  encryption : UInt8
  ssid : String
  rssi : Int
  /-- What the module tells beside these: the address of the access point, its channel and more. -/
  others : Bytes
  ssid_short : ssid.utf8ByteSize ≤ ssidCapacity
  ssid_unquoted : '"' ∉ ssid.toList
  rssi_range : int32Min ≤ rssi ∧ rssi ≤ int32Max
  others_short : others.length ≤ 200
  others_untagged : ∀ t : Tag, ¬ t.bytes <:+: others
  others_single : ¬ Driver.entryStart <:+: others

namespace Listing

open Driver

/-- The network that an entry is about. -/
def network (l : Listing) : Network := ⟨l.ssid, l.rssi, l.encryption⟩

/-- **The line of an entry.** -/
def line (l : Listing) : Bytes :=
  utf8 s!"+CWLAP:({l.encryption},\"{l.ssid}\",{l.rssi}," ++ l.others ++ utf8 ")\r\n"

/-- **A list of networks, as the module prints it.** -/
def print (ls : List Listing) : Bytes := ls.flatMap line ++ utf8 "\r\nOK\r\n"

/-- What an entry says before the fields that are passed over. -/
def fields (l : Listing) : Bytes :=
  decimal l.encryption.toNat ++ ([ascii ',', ascii '"'] ++ (utf8 l.ssid ++ [ascii '"'] ++
    ([ascii ','] ++ (Spelling.ofInt l.rssi).bytes)))

/-- The fields that are passed over, and the end of the line. -/
def passed (l : Listing) : Bytes := [ascii ','] ++ l.others ++ utf8 ")\r\n"

theorem line_eq (l : Listing) : l.line = entryStart ++ (l.fields ++ l.passed) := by
  have hencryption : utf8 (toString l.encryption) = decimal l.encryption.toNat := rfl
  have hstart : utf8 (toString "+CWLAP:(") = entryStart := rfl
  have hopen : utf8 (toString ",\"") = [ascii ',', ascii '"'] := rfl
  have hclose : utf8 (toString "\",") = [ascii '"', ascii ','] := rfl
  have hcomma : utf8 (toString ",") = [ascii ','] := rfl
  unfold line fields passed
  rw [Spelling.bytes_ofInt]
  simp only [utf8_append, hencryption, hstart, hopen, hclose, hcomma]
  simp [toString]

/-! ### One entry -/

variable {cut : Prop} {e : Engine Bench} {timeout : UInt32} {l : Listing} {rest : Bytes}

/-- A number that waits at the front is read. -/
theorem wp_intOrZero {number : Spelling} {Q : Int → Engine Bench → Prop}
    (h : e.device.Holds (number.bytes ++ rest))
    (hrest : ∀ b ∈ rest.head?, isDigitByte b = false)
    (hrange : int32Min ≤ number.value ∧ number.value ≤ int32Max)
    (hQ : ∀ b : Bench, b.Holds rest → Q number.value { e with device := b }) :
    wp cut intOrZero Q e := by
  have hskip : ∀ b ∈ ([] : Bytes), starts b = false := nofun
  have hparse : parse (number.bytes ++ rest) = (some number.value, rest) :=
    parse_spelling number hskip hrest hrange.1 hrange.2
  unfold intOrZero
  rw [wp_bind]
  refine Engine.wp_readInt h fun b hb => ?_
  rw [hparse] at hb ⊢
  exact hQ b hb

/-- A name without a quote ends at the first quote. -/
theorem decided_name {name : String} (unquoted : '"' ∉ name.toList) :
    Scan.Decided (some (utf8 "\"")) false (utf8 name ++ [ascii '"']) .found := by
  have hname : ascii '"' ∉ utf8 name := by
    have hmem := ascii_mem_utf8 (d := '"') (by decide) name.toList
    rw [String.ofList_toList] at hmem
    rw [hmem]
    exact unquoted
  exact Scan.decided_found (by decide) (by decide) (List.suffix_append _ _)
    (Scan.first_of_head hname) nofun

/-- A short name fits into the window, with the quote behind it. -/
theorem extract_name {name : String} (short : name.utf8ByteSize ≤ ssidCapacity) :
    (Window.last (utf8 name ++ [ascii '"']) : Window windowSize).extract ssidCapacity 1 = .ok name := by
  have hcapacity : ssidCapacity = 31 := rfl
  have hwindow : windowSize = 32 := rfl
  have hshort : (utf8 name).length ≤ ssidCapacity := short
  have hlength : (utf8 name ++ [ascii '"']).length - windowSize = 0 := by
    rw [List.length_append, List.length_singleton]
    omega
  unfold Window.extract
  rw [Window.bytes_last, hlength, List.drop_zero, List.length_append, List.length_singleton,
    Nat.add_sub_cancel, List.take_left, List.take_of_length_le hshort, text?_utf8]

/-- The name begins behind a comma and a quote. -/
theorem decided_opening : Scan.Decided (some (utf8 "\"")) true [ascii ',', ascii '"'] .found :=
  Scan.decided_of_inits (by decide) (by decide)

/-- The signal strength begins behind a comma. -/
theorem decided_comma : Scan.Decided (some (utf8 ",")) true [ascii ','] .found :=
  Scan.decided_of_inits (by decide) (by decide)

/-- A code that fits into a byte is kept. -/
theorem byte?_code (code : UInt8) : Packet.byte? (code.toNat : Int) = some code := by
  have hlt := code.toNat_lt
  unfold Packet.byte?
  rw [if_pos (by omega), Int.toNat_natCast]
  exact congrArg some UInt8.ofNat_toNat

/-- **An entry is read as it was printed.** -/
theorem wp_readEntry {Q : Network → Engine Bench → Prop}
    (h : e.device.Holds (l.fields ++ (l.passed ++ rest))) (htime : ssidCapacity + 1 < timeout.toNat)
    (hQ : ∀ (b : Bench) (window : Window windowSize), b.Holds (l.passed ++ rest) →
      Q l.network { e with device := b, window := window }) :
    wp cut (readEntry timeout) Q e := by
  have hcapacity : ssidCapacity = 31 := rfl
  have hshort : (utf8 l.ssid).length ≤ ssidCapacity := l.ssid_short
  have hencryption : (Spelling.ofNat l.encryption.toNat).value = (l.encryption.toNat : Int) :=
    Spelling.value_ofNat _
  have hlt := l.encryption.toNat_lt
  unfold fields passed at h
  rw [← Spelling.bytes_ofNat] at h
  simp only [List.append_assoc] at h
  unfold readEntry
  rw [wp_bind]
  refine wp_intOrZero h (by simp [isDigitByte, ascii]) ?_ fun b₁ h₁ => ?_
  · rw [hencryption]
    unfold int32Min int32Max
    omega
  rw [wp_bind]
  refine Engine.wp_awaitTag_holds h₁ decided_opening (by simp; omega) fun b₂ h₂ => ?_
  rw [wp_bind]
  have hname := decided_name l.ssid_unquoted
  rw [← List.append_assoc] at h₂
  refine Engine.wp_awaitTag_holds h₂ hname (by simp; omega) fun b₃ h₃ => ?_
  simp only [wp_bind, wp_get, extract_name l.ssid_short]
  refine Engine.wp_awaitTag_holds h₃ decided_comma (by simp; omega) fun b₄ h₄ => ?_
  have hrssi := Spelling.value_ofInt l.rssi
  refine wp_intOrZero h₄ (by simp [isDigitByte, ascii]) (by rw [hrssi]; exact l.rssi_range)
    fun b₅ h₅ => ?_
  rw [wp_pure, hencryption, byte?_code, hrssi]
  refine hQ b₅ _ ?_
  unfold passed
  simp only [List.append_assoc]
  exact h₅

/-! ### The next entry -/

/-- What the module says where the next entry begins, or the list ends. -/
def lead : List Listing → Bytes
  | [] => utf8 "\r\nOK\r\n"
  | _ :: _ => entryStart

/-- What a scan for the next entry makes of that. -/
def found : List Listing → Scan
  | [] => .matched .ok
  | _ :: _ => .found

/-- What is left of a list after that, with `rest` behind it. -/
def left (rest : Bytes) : List Listing → Bytes
  | [] => rest
  | l :: ls => l.fields ++ (l.passed ++ (print ls ++ rest))

theorem print_append (ls : List Listing) (rest : Bytes) : print ls ++ rest = lead ls ++ left rest ls := by
  cases ls with
  | nil => rfl
  | cons l ls => simp [print, lead, left, line_eq]

theorem of_lead (g : Bytes) (ls : List Listing) :
    Scan.of (g ++ lead ls) (some entryStart) true = some (found ls) := by
  cases ls with
  | cons l ls =>
    exact Scan.of_eq_found_iff.2 ⟨entryStart, rfl, by decide, by decide, List.suffix_append _ _⟩
  | nil =>
    have hok : Tag.ok.bytes <:+ g ++ lead [] := List.suffix_append g _
    refine Scan.of_eq_matched_iff.2 ⟨rfl, ?_, ?_⟩
    · rintro ⟨_, ⟨⟩, -, -, hsuf⟩
      exact Scan.not_suffix_append (by decide) (by decide) hsuf
    · exact List.find?_cons_of_pos (decide_eq_true hok)

/-- **A scan passes over what an entry says beside its fields**, and over the end of its line. -/
theorem silent_others (l : Listing) : Scan.Silent (some entryStart) true ([ascii ','] ++ l.others) := by
  have hinside : ∀ t ∈ Scan.sought (some entryStart), ¬ t <:+: l.others := by
    intro t ht
    rcases List.mem_append.1 ht with h | h
    · obtain rfl : t = entryStart := by simpa using h
      exact l.others_single
    · obtain ⟨tag, -, rfl⟩ := List.mem_map.1 h
      exact l.others_untagged tag
  have hhead : ∀ t ∈ Scan.sought (some entryStart), t ≠ [] ∧ t.head? ≠ some (ascii ',') := by
    decide
  intro p hp
  refine Scan.of_eq_none fun t ht hsuf => ?_
  rcases List.prefix_cons_iff.1 hp with rfl | ⟨p', rfl, hp'⟩
  · exact (hhead t ht).1 (List.suffix_nil.1 hsuf)
  · rcases List.suffix_cons_iff.1 hsuf with rfl | hsuf'
    · exact (hhead _ ht).2 rfl
    · exact hinside t ht (hsuf'.isInfix.trans hp'.isInfix)

/-- **A scan for the next entry** ends where that begins, or at the end of the list. -/
theorem decided_lead (l : Listing) (ls : List Listing) :
    Scan.Decided (some entryStart) true (l.passed ++ lead ls) (found ls) := by
  have hinert : Scan.Inert (some entryStart) (utf8 ")\r\n" ++ lead ls) := by
    cases ls <;> simp only [lead] <;> decide
  have hof := of_lead l.passed ls
  unfold passed at hof ⊢
  rw [List.append_assoc] at hof ⊢
  exact l.silent_others.decided_append hinert hof

theorem decided_first (ls : List Listing) :
    Scan.Decided (some entryStart) true (lead ls) (found ls) := by
  refine Scan.decided_of_inits (of_lead [] ls) ?_
  cases ls <;> simp only [lead] <;> decide

theorem length_lead_le (ls : List Listing) : (lead ls).length ≤ 8 := by
  cases ls <;> simp only [lead] <;> decide

theorem length_passed_le (l : Listing) : l.passed.length ≤ 204 := by
  have hend : (utf8 ")\r\n").length = 3 := by decide
  have hothers := l.others_short
  unfold passed
  simp only [List.length_append, List.length_singleton, hend]
  omega

/-! ### All entries -/

/-- One round of reading: the entry that was found is kept, and the next one is looked for if there is
room. -/
def readRound {σ : Type} [Device σ] (timeout : UInt32) (scan : Scan) :
    Run (Driver σ) (Round Scan Scan) := do
  match scan with
  | .found =>
    let entry ← onEngine (readEntry timeout)
    modify fun d => { d with networks := d.networks ++ [entry] }
    if maxNetworks ≤ (← get).networks.length then return .finish .found
    else return .again (← onEngine (Engine.awaitTag timeout (some entryStart) true))
  | _ => return .finish scan

theorem readEntries_eq {σ : Type} [Device σ] (first : Scan) :
    (readEntries timeout first : Run (Driver σ) Scan) =
      Run.loop (maxNetworks + 1) (readRound timeout) first := rfl

variable {done todo : List Listing} {d : Driver Bench}

/-- **The entries `done` were read and kept**, and those still to be read are `todo`. The first of them has
begun, or the list has ended. -/
structure Halfway (rest : Bytes) (done todo : List Listing) (d : Driver Bench) : Prop where
  kept : d.networks = done.map network
  waits : d.engine.device.Holds (left rest todo)
  room : done.length < maxNetworks

/-- **A round reads an entry**, and goes on to the next one unless there is no more room. -/
theorem Halfway.wp_readRound (h : Halfway rest done (l :: todo) d) (htime : 212 < timeout.toNat) :
    wp cut (readRound timeout .found) (afterRound
      (fun s d' => s = found todo ∧ Halfway rest (done ++ [l]) todo d')
      (fun s d' => s = .found ∧ d'.networks = (done ++ [l]).map network ∧
        done.length + 1 = maxNetworks ∧ ∃ w, d'.engine.device.Holds w)) d := by
  have hcapacity : ssidCapacity = 31 := rfl
  have hkept : d.networks ++ [l.network] = (done ++ [l]).map network := by
    rw [h.kept, List.map_append, List.map_singleton]
  have hlength : (done ++ [l]).length = done.length + 1 := List.length_append
  have hroom := h.room
  simp only [readRound, wp_bind, wp_onEngine]
  refine wp_readEntry h.waits (by omega) fun b window hb => ?_
  rw [wp_modify, wp_get, wp_ite, hkept, List.length_map, hlength]
  split
  case isTrue hfull => exact ⟨rfl, rfl, by omega, _, hb⟩
  case isFalse hfree =>
    rw [print_append, ← List.append_assoc] at hb
    have hlead := length_lead_le todo
    have hpassed := l.length_passed_le
    have hearly : (l.passed ++ lead todo).length < timeout.toNat := by
      rw [List.length_append]
      omega
    rw [wp_bind, wp_onEngine]
    refine Engine.wp_awaitTag_holds hb (l.decided_lead todo) hearly fun b' hb' => ?_
    exact ⟨rfl, rfl, hb', by omega⟩

/-- **The entries of a list are read one after the other**, until the list ends or there is no more room. -/
theorem wp_readEntries {entries : List Listing} (h : d.engine.device.Holds (left rest entries))
    (hnetworks : d.networks = []) (htime : 212 < timeout.toNat) :
    wp cut (readEntries timeout (found entries)) (fun s d' => s ≠ .timedOut ∧
      d'.networks = (entries.take maxNetworks).map network ∧
      ∃ w, d'.engine.device.Holds w ∧ (entries.length < maxNetworks → w = rest)) d := by
  rw [readEntries_eq]
  -- a round is left for each entry that there is room for, and one for the end of the list
  refine wp_loop (I := fun n s d' => ∃ done todo, done ++ todo = entries ∧ s = found todo ∧
    Halfway rest done todo d' ∧ n + done.length = maxNetworks + 1) ?_ ?_ _ _ _
    ⟨[], entries, rfl, rfl, ⟨hnetworks, h, by decide⟩, rfl⟩
  · rintro _ _ ⟨done, todo, -, -, hhalf, hn⟩
    have := hhalf.room
    omega
  · rintro n _ d₁ ⟨done, todo, rfl, rfl, hhalf, hn⟩
    cases todo with
    | nil =>
      rw [List.append_nil, List.take_of_length_le (Nat.le_of_lt hhalf.room)]
      exact ⟨nofun, hhalf.kept, rest, hhalf.waits, fun _ => rfl⟩
    | cons l todo =>
      refine wp_mono (hhalf.wp_readRound htime) ?_
      rintro (s | s) d₂ hround
      · obtain ⟨rfl, hnext⟩ := hround
        refine ⟨done ++ [l], todo, by simp, rfl, hnext, ?_⟩
        rw [List.length_append, List.length_singleton]
        omega
      · obtain ⟨rfl, hkept, hfull, w, hw⟩ := hround
        have htake : (done ++ l :: todo).take maxNetworks = done ++ [l] := by
          rw [← hfull, List.take_length_add_append]
          rfl
        refine ⟨nofun, by rw [htake, hkept], w, hw, fun hshort => ?_⟩
        rw [List.length_append, List.length_cons] at hshort
        omega

end Listing

/-! ### The whole scan -/

namespace Driver

section

variable {σ : Type} [Device σ]

/-- What is done before the list is read: the networks of the last scan are forgotten, what waits is
thrown away, and the list is asked for. -/
def askForList : Attempt (Driver σ) Unit := do
  logDebug "> scan_networks"
  modify fun d => { d with networks := [] }
  let _ ← lift (onEngine (Engine.drain true))
  tryEngine (Engine.transmitLine "AT+CWLAP")

/-- Read the list that was asked for. -/
def readList : Attempt (Driver σ) Nat := do
  let timeouts ← lift timeouts
  let first ← lift (onEngine (Engine.awaitTag timeouts.scan (some entryStart) true))
  match ← lift (readEntries timeouts.field first) with
  | .timedOut => throw .timeout
  | _ =>
    let count := (← get).networks.length
    logDebug s!"Found {count} networks"
    return count

theorem listNetworks_eq : (listNetworks : Attempt (Driver σ) Nat) = (do askForList; readList) := by
  unfold listNetworks askForList
  rw [bind_assoc]
  refine bind_congr fun _ => ?_
  rw [bind_assoc]
  refine bind_congr fun _ => ?_
  rw [bind_assoc]
  rfl

/-- No network of the last scan is kept. -/
theorem wp_askForList (L : Ledger σ) (d : Driver σ) :
    Attempt.wp True askForList (fun _ d' => d'.networks = [] ∧
      d'.engine.timeouts = d.engine.timeouts) (fun _ d' => d'.networks = []) d := by
  have hfits : "AT+CWLAP".utf8ByteSize ≤ commandLimit := by decide
  unfold askForList
  rw [Engine.transmitLine_eq hfits, Attempt.wp_bind]
  refine Attempt.wp_lift.2 ?_
  show wp True (onEngine (record _ _)) _ d
  rw [wp_onEngine]
  refine L.wp_record fun e₁ h₁ _ => ?_
  simp only [Attempt.wp_bind, Attempt.wp_modify, Attempt.wp_lift, wp_onEngine, wp_tryEngine]
  refine L.wp_drain fun _ _ e₂ _ h₂ _ => L.wp_transmit (fun e₃ h₃ => ?_) fun _ _ _ _ => trivial
  exact ⟨trivial, (h₃.timeouts.trans h₂).trans h₁.timeouts⟩

end

/-- **A list was read**: `n` networks are kept, the first entries of the list. What waits now is what came
after the list, unless there was no room for all of it. -/
structure Listed (entries : List Listing) (rest : Bytes) (n : Nat) (d : Driver Bench) : Prop where
  count : n = min entries.length maxNetworks
  networks : d.networks = (entries.take maxNetworks).map Listing.network
  waits : ∃ w, d.engine.device.Holds w ∧ (entries.length < maxNetworks → w = rest)

variable {d d₁ : Driver Bench} {entries : List Listing} {rest : Bytes}

/-- A list that waits is read. -/
theorem wp_readList {cut : Prop} (h : d.engine.device.Holds (Listing.print entries ++ rest))
    (hnetworks : d.networks = []) (hscan : 8 < d.engine.timeouts.scan.toNat)
    (hfield : 212 < d.engine.timeouts.field.toNat) :
    Attempt.wp cut readList (Listed entries rest) (fun _ _ => False) d := by
  have hlead := Listing.length_lead_le entries
  rw [Listing.print_append] at h
  unfold readList timeouts
  simp only [Attempt.wp_bind, Attempt.wp_lift, wp_bind, wp_get, wp_pure, wp_onEngine]
  refine Engine.wp_awaitTag_holds h (Listing.decided_first entries) (by omega) fun b hb => ?_
  refine wp_mono (Listing.wp_readEntries hb hnetworks hfield) ?_
  rintro s d₁ ⟨hs, hkept, w, hw, hrest⟩
  have hcount : d₁.networks.length = min entries.length maxNetworks := by
    rw [hkept, List.length_map, List.length_take, Nat.min_comm]
  have hdone : Attempt.wp cut (do
      let count := (← get).networks.length
      logDebug s!"Found {count} networks"
      return count) (Listed entries rest) (fun _ _ => False) d₁ := by
    rw [Attempt.wp_bind, Attempt.wp_get, Attempt.wp_bind]
    refine Attempt.wp_lift.2 ?_
    show wp cut (onEngine (record _ _)) _ d₁
    rw [wp_onEngine]
    exact Engine.wp_record hw fun b' hb' _ => ⟨hcount, hkept, w, hb', hrest⟩
  cases s with
  | timedOut => exact absurd rfl hs
  | found => exact hdone
  | matched t => exact hdone

/-- **A list is read as it was printed**, as far as there is room for it: the networks of the last scan are
forgotten, the first of those that the module prints are kept in their order, and what comes after a list
that was read to its end is left. -/
theorem listNetworks_print (htimeouts : d.engine.timeouts = {})
    (hasked : askForList.run d = .ok (.ok ()) d₁)
    (hprinted : d₁.engine.device.Holds (Listing.print entries ++ rest)) :
    ∃ d', listNetworks.run d = .ok (.ok (min entries.length maxNetworks)) d' ∧
      d'.networks = (entries.take maxNetworks).map Listing.network ∧
      (entries.length < maxNetworks → d'.engine.device.Holds rest) := by
  have hask : wp True askForList.run _ d := wp_askForList Bench.ledger d
  obtain ⟨hnetworks, htimeouts₁⟩ := wp_of_ok hask hasked
  rw [htimeouts] at htimeouts₁
  have hread : Attempt.wp False listNetworks (Listed entries rest) (fun _ _ => False) d := by
    rw [listNetworks_eq, Attempt.wp_bind]
    exact (wp_iff_of_ok hasked).2 (wp_readList hprinted hnetworks (by rw [htimeouts₁]; decide)
      (by rw [htimeouts₁]; decide))
  obtain ⟨r, d', hrun, hr⟩ := wp_false_iff.1 hread
  cases r with
  | error f => exact hr.elim
  | ok n =>
    obtain ⟨rfl, hkept, w, hw, hrest⟩ := hr
    exact ⟨d', hrun, hkept, fun hroom => hrest hroom ▸ hw⟩

/-- A network whose name holds what ends an entry, what ends a list and what begins the next entry. -/
def disguised : Listing where
  encryption := 3
  ssid := "a,1)\r\nOK\r\n+CWLAP:(0"
  rssi := -67
  others := utf8 "\"1a:fe:34:00:00:01\",11,-28,0"
  ssid_short := by decide
  ssid_unquoted := by decide
  rssi_range := by decide
  others_short := by decide
  others_untagged := by
    intro t
    cases t <;> decide
  others_single := by decide

/-- What the module says when it is asked: it finds this network twice, and then reports a packet. -/
def twoNetworks : Bytes := Listing.print [disguised, disguised] ++ utf8 "+IPD,0,2:hi"

/-- One network of the last scan is remembered. -/
def inReach : Driver Bench where
  engine := { device := { replies := [[(0, twoNetworks)]] } }
  networks := [⟨"old", -40, 4⟩]

theorem listNetworks_disguised :
    ∃ d₁ d', askForList.run inReach = .ok (.ok ()) d₁ ∧ d₁.engine.device.Holds twoNetworks ∧
      listNetworks.run inReach = .ok (.ok 2) d' ∧
      d'.networks = [disguised.network, disguised.network] ∧
      d'.engine.device.Holds (utf8 "+IPD,0,2:hi") := by
  have hvalue : value? (do
      let r ← askForList.run
      let b := (← get).engine.device
      return (r, decide (b.rx = twoNetworks ∧ b.arrivals.entries = [] ∧ b.step = 1))) inReach =
        some (.ok (), true) := by decide +kernel
  obtain ⟨r, d₁, hasked, hlast⟩ := value?_bind_eq_some.1 hvalue
  obtain ⟨rfl, hdecide⟩ : r = .ok () ∧ decide (d₁.engine.device.rx = twoNetworks ∧
      d₁.engine.device.arrivals.entries = [] ∧ d₁.engine.device.step = 1) = true := by
    simpa only [Prod.ext_iff] using Option.some.inj hlast
  obtain ⟨hrx, harrivals, hstep⟩ := of_decide_eq_true hdecide
  have hholds : d₁.engine.device.Holds twoNetworks := ⟨hrx, congrArg Schedule.mk harrivals, hstep⟩
  obtain ⟨d', hrun, hnetworks, hrest⟩ := listNetworks_print rfl hasked hholds
  exact ⟨d₁, d', hasked, hholds, hrun, hnetworks, hrest (by decide)⟩

end Driver

end EspWifi
