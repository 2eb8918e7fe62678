import EspWifi.Proofs.At.Intake
import EspWifi.Proofs.At.Pace
import EspWifi.Proofs.Modem.Listing

/-!
# Transcripts of a network scan

The driver reads a list of networks field by field, and it goes on whatever becomes of a field: a number
that is missing counts as zero, a name that is missing as empty. What the module sends may be anything and
may come at any times. The bytes that each read has taken say what is kept.

* `Reading`: the fields of an entry as they were read; `Reading.network`: **the network that is kept.**
* `Heard`: a list as it was read, entry by entry, and how it ended.
* `Driver.wp_readList_heard`: what is kept of a list.
* `Driver.listNetworks_scanned`: **how a scan of the networks goes.**
* `Driver.PassesScan.exists_listNetworks`: it returns.
-/

namespace EspWifi

open Run Numeral

/-! ### One entry -/

/-- **The fields of an entry as they were read**: the bytes that each of the five reads has taken. -/
@[ext]
structure Reading where
  code : Bytes
  /-- Up to the quote before the name. -/
  opening : Bytes
  /-- Up to the quote behind it. -/
  name : Bytes
  comma : Bytes
  level : Bytes

namespace Reading

variable (x : Reading)

/-- What was read behind the code. -/
def behind : Bytes := x.opening ++ (x.name ++ (x.comma ++ x.level))

def bytes : Bytes := x.code ++ x.behind

/-- The reads can have taken these bytes. -/
structure Taken : Prop where
  code : (parse x.code).2 = []
  opening : Scan.Taken (some (utf8 "\"")) true x.opening
  name : Scan.Taken (some (utf8 "\"")) false x.name
  comma : Scan.Taken (some (utf8 ",")) true x.comma
  level : (parse x.level).2 = []

/-- The name that is kept: what is in the window before the quote, if the quote came. -/
def ssid : String :=
  if Scan.outcome (some (utf8 "\"")) false x.name = .found then
    ((Window.last x.name : Window windowSize).extract ssidCapacity 1).toOption.getD ""
  else ""

/-- **The network that is kept.** -/
def network : Network where
  ssid := x.ssid
  rssi := (parse x.level).1.getD 0
  encryptionCode := (Packet.byte? ((parse x.code).1.getD 0)).getD 0

end Reading

namespace Driver

variable {e : Engine Bench}

/-- A number that is missing counts as zero. -/
theorem wp_intOrZero_takes :
    wp (¬ e.device.Passes e.timeouts.field) intOrZero (fun i e' => ∃ c, e.Takes e' c ∧
      (parse c).2 = [] ∧ i = (parse c).1.getD 0) e := by
  unfold intOrZero
  rw [wp_bind]
  refine wp_mono Engine.wp_readInt_takes ?_
  rintro r e' ⟨c, htakes, hparse⟩
  refine ⟨c, htakes, ?_, ?_⟩ <;> rw [hparse]

/-- **An entry is kept as its fields were read.** -/
theorem wp_readEntry_takes :
    wp (¬ e.device.Passes e.timeouts.field) (readEntry e.timeouts.field) (fun n e' => ∃ x : Reading,
      e.Takes e' x.bytes ∧ x.Taken ∧ n = x.network) e := by
  unfold readEntry
  rw [wp_bind]
  refine wp_mono wp_intOrZero_takes ?_
  rintro encryption e₁ ⟨code, h₁, hcode, rfl⟩
  rw [wp_bind]
  refine wp_mono (wp_weaken Engine.wp_awaitTag_takes fun h => mt h₁.passes h) ?_
  rintro _ e₂ ⟨opening, h₂, -, hopening, -⟩
  have h₁₂ := h₁.trans h₂
  rw [wp_bind]
  refine wp_mono (wp_weaken Engine.wp_awaitTag_takes fun h => mt h₁₂.passes h) ?_
  rintro s e₃ ⟨name, h₃, hwindow, hname, hs⟩
  have h₁₃ := h₁₂.trans h₃
  -- the name is looked at where it was read, and no read that comes after it depends on it
  have hkept (ssid : String)
      (hssid : ∀ comma level, Reading.ssid ⟨code, opening, name, comma, level⟩ = ssid) :
      wp (¬ e.device.Passes e.timeouts.field) (do
        let _ ← Engine.awaitTag e.timeouts.field (some (utf8 ",")) true
        let rssi ← intOrZero
        return ⟨ssid, rssi, (Packet.byte? ((parse code).1.getD 0)).getD 0⟩ : Run (Engine Bench) Network)
        (fun n e' => ∃ x : Reading, e.Takes e' x.bytes ∧ x.Taken ∧ n = x.network) e₃ := by
    rw [wp_bind]
    refine wp_mono (wp_weaken Engine.wp_awaitTag_takes fun h => mt h₁₃.passes h) ?_
    rintro _ e₄ ⟨comma, h₄, -, hcomma, -⟩
    have h₁₄ := h₁₃.trans h₄
    have hpasses (h : e.device.Passes e.timeouts.field) : e₄.device.Passes e₄.timeouts.field := by
      rw [h₁₄.timeouts]
      exact h₁₄.passes h
    rw [wp_bind]
    refine wp_mono (wp_weaken wp_intOrZero_takes fun h => mt hpasses h) ?_
    rintro _ e₅ ⟨level, h₅, hlevel, rfl⟩
    refine ⟨⟨code, opening, name, comma, level⟩, ?_, ?_, ?_⟩
    · have hall := h₁₄.trans h₅
      simpa only [Reading.bytes, Reading.behind, List.append_assoc] using hall
    · exact ⟨hcode, hopening, hname, hcomma, hlevel⟩
    · rw [Reading.network, hssid]
  cases s with
  | found =>
    simp only [wp_bind, wp_get, wp_pure, hwindow] at hkept ⊢
    exact hkept _ fun _ _ => by rw [Reading.ssid, if_pos hs.symm]
  | matched t =>
    exact hkept "" fun _ _ => by rw [Reading.ssid, ← hs, if_neg (by simp)]
  | timedOut =>
    exact hkept "" fun _ _ => by rw [Reading.ssid, ← hs, if_neg (by simp)]

end Driver

/-! ### The list -/

/-- An entry that was read, and the stream behind it. -/
structure Place where
  reading : Reading
  rest : Bytes

open Driver in
/-- **A list as it was read**, with room for so many entries more. Of the stream that it was read from,
each entry has taken what was passed over before its start, and its fields; the list ends when there is
no more room, or as a scan for the next entry ends that does not find one. The last stream is what is
left. -/
inductive Heard : Nat → Bytes → List Place → Scan → Bytes → Prop
  | full {left : Bytes} : Heard 0 left [] .found left
  | ended {room : Nat} {c left : Bytes} (taken : Scan.Taken (some entryStart) true c)
      (unfound : Scan.outcome (some entryStart) true c ≠ .found) :
      Heard (room + 1) (c ++ left) [] (Scan.outcome (some entryStart) true c) left
  | entry {room : Nat} {lead rest left : Bytes} {x : Reading} {later : List Place} {s : Scan}
      (start : Scan.Decided (some entryStart) true lead .found) (taken : x.Taken)
      (tail : Heard room rest later s left) :
      Heard (room + 1) (lead ++ (x.bytes ++ rest)) (⟨x, rest⟩ :: later) s left

namespace Driver

variable {d : Driver Bench} {timeout : UInt32} {c : Bytes}

/-- **A round keeps the entry that was found**, and looks for the next one if there is room. -/
theorem wp_readRound_takes (htimeout : timeout = d.engine.timeouts.field) :
    wp (¬ d.engine.device.Passes timeout) (Listing.readRound timeout .found) (afterRound
      (fun s d' => ∃ (x : Reading) (c : Bytes), d.engine.Takes d'.engine (x.bytes ++ c) ∧ x.Taken ∧
        d'.networks = d.networks ++ [x.network] ∧ d.networks.length + 1 < maxNetworks ∧
        Scan.Taken (some entryStart) true c ∧ s = Scan.outcome (some entryStart) true c)
      (fun s d' => ∃ x : Reading, d.engine.Takes d'.engine x.bytes ∧ x.Taken ∧
        d'.networks = d.networks ++ [x.network] ∧ maxNetworks ≤ d.networks.length + 1 ∧
        s = .found)) d := by
  have hlength (n : Network) : (d.networks ++ [n]).length = d.networks.length + 1 :=
    List.length_append
  subst htimeout
  simp only [Listing.readRound, wp_bind, wp_onEngine]
  refine wp_mono wp_readEntry_takes ?_
  rintro _ e₁ ⟨x, h₁, hx, rfl⟩
  rw [wp_modify, wp_get, wp_ite, hlength]
  split
  case isTrue hfull => exact ⟨x, h₁, hx, rfl, hfull, rfl⟩
  case isFalse hroom =>
    rw [wp_bind, wp_onEngine]
    refine wp_mono (wp_weaken Engine.wp_awaitTag_takes fun h => mt h₁.passes h) ?_
    rintro _ e₂ ⟨c, h₂, -, hc, rfl⟩
    exact ⟨x, c, h₁.trans h₂, hx, rfl, Nat.lt_of_not_le hroom, hc, rfl⟩

/-- A list ends as a scan does that finds no entry. -/
theorem readRound_unfound {s : Scan} (hs : s ≠ .found) :
    (Listing.readRound timeout s : Run (Driver Bench) _) = pure (.finish s) := by
  cases s with
  | found => exact absurd rfl hs
  | matched t => rfl
  | timedOut => rfl

/-- **Entries are read as long as another one begins and there is room.** The induction is on the room that
is left; the bytes `c` were taken by the last scan for an entry. -/
theorem wp_loop_readRound {room : Nat} (htaken : Scan.Taken (some entryStart) true c)
    (hroom : d.networks.length + (room + 1) = maxNetworks)
    (htimeout : timeout = d.engine.timeouts.field) :
    wp (¬ d.engine.device.Passes timeout)
      (Run.loop (room + 2) (Listing.readRound timeout) (Scan.outcome (some entryStart) true c))
      (fun s d' => ∃ xs, Heard (room + 1) (c ++ d.engine.device.stream) xs s d'.engine.device.stream ∧
        d'.networks = d.networks ++ xs.map (·.reading.network)) d := by
  induction room using Nat.strong_induction_on generalizing d c with
  | _ room ih =>
    rw [wp_loop_succ]
    by_cases hfound : Scan.outcome (some entryStart) true c = .found
    case neg =>
      rw [readRound_unfound hfound]
      exact ⟨[], .ended htaken hfound, (List.append_nil _).symm⟩
    case pos =>
      have hstart : Scan.Decided (some entryStart) true c .found :=
        htaken.decided ((Scan.outcome_eq_iff (by simp)).1 hfound)
      rw [hfound]
      refine wp_mono (wp_readRound_takes htimeout) ?_
      rintro (s | s) d₁ hround
      · obtain ⟨x, c₁, htakes, hx, hnetworks, hmore, htaken₁, rfl⟩ := hround
        obtain ⟨room, rfl⟩ : ∃ r, room = r + 1 := ⟨room - 1, by omega⟩
        have hroom₁ : d₁.networks.length + (room + 1) = maxNetworks := by
          rw [hnetworks, List.length_append, List.length_singleton]
          omega
        have htimeout₁ : timeout = d₁.engine.timeouts.field := by rw [htakes.timeouts, htimeout]
        refine wp_mono (wp_weaken (ih room (Nat.lt_succ_self room) htaken₁ hroom₁ htimeout₁)
          fun h => mt htakes.passes h) ?_
        rintro s d₂ ⟨xs, hheard, hlater⟩
        refine ⟨⟨x, c₁ ++ d₁.engine.device.stream⟩ :: xs, ?_, ?_⟩
        · rw [htakes.stream, List.append_assoc]
          exact .entry hstart hx hheard
        · rw [hlater, hnetworks, List.append_assoc]
          rfl
      · obtain ⟨x, htakes, hx, hnetworks, hfull, rfl⟩ := hround
        obtain rfl : room = 0 := by omega
        refine ⟨[⟨x, d₁.engine.device.stream⟩], ?_, hnetworks⟩
        rw [htakes.stream]
        exact .entry hstart hx .full

/-- **The clock passes the timeouts of a network scan.** -/
structure PassesScan (d : Driver Bench) : Prop where
  send : d.engine.device.Passes d.engine.timeouts.send
  scan : d.engine.device.Passes d.engine.timeouts.scan
  field : d.engine.device.Passes d.engine.timeouts.field

/-- What the driver says of a list that ended like this. -/
def reported (xs : List Place) : Scan → Except Fault Nat
  | .timedOut => .error .timeout
  | _ => .ok xs.length

/-- **What is kept of a list**, and what is said of it. -/
theorem wp_readList_heard (hnetworks : d.networks = []) :
    wp (¬ d.PassesScan) readList.run (fun r d' => ∃ xs s,
      Heard maxNetworks d.engine.device.stream xs s d'.engine.device.stream ∧
        d'.networks = xs.map (·.reading.network) ∧ r = reported xs s) d := by
  unfold readList timeouts
  simp only [Attempt.wp_run, Attempt.wp_bind, Attempt.wp_lift, wp_bind, wp_get, wp_pure, wp_onEngine]
  refine wp_mono (wp_weaken Engine.wp_awaitTag_takes fun h h' => h h'.scan) ?_
  rintro _ e₁ ⟨c, h₁, -, hc, rfl⟩
  rw [Listing.readEntries_eq]
  have hroom : ({ d with engine := e₁ } : Driver Bench).networks.length + (9 + 1) = maxNetworks := by
    rw [hnetworks]
    rfl
  have htimeout : d.engine.timeouts.field = e₁.timeouts.field := by rw [h₁.timeouts]
  refine wp_mono (wp_weaken (wp_loop_readRound hc hroom htimeout) fun h h' => h (h₁.passes h'.field)) ?_
  rintro s d₂ ⟨xs, hheard, hkept⟩
  have hkept₂ : d₂.networks = xs.map (·.reading.network) := by
    rw [hkept, hnetworks, List.nil_append]
  rw [← h₁.stream] at hheard
  have hcounted (hs : reported xs s = .ok xs.length) :
      Attempt.wp (¬ d.PassesScan) (do
        let count := (← get).networks.length
        logDebug s!"Found {count} networks"
        return count)
        (fun n d' => ∃ xs s, Heard maxNetworks d.engine.device.stream xs s d'.engine.device.stream ∧
          d'.networks = xs.map (·.reading.network) ∧ .ok n = reported xs s)
        (fun f d' => ∃ xs s, Heard maxNetworks d.engine.device.stream xs s d'.engine.device.stream ∧
          d'.networks = xs.map (·.reading.network) ∧ .error f = reported xs s) d₂ := by
    have hlength : d₂.networks.length = xs.length := by rw [hkept₂, List.length_map]
    rw [Attempt.wp_bind, Attempt.wp_get, Attempt.wp_bind]
    refine Attempt.wp_lift.2 ?_
    show wp _ (onEngine (onDevice (Device.record _ _))) _ d₂
    rw [wp_onEngine, wp_onDevice, Bench.wp_record, Attempt.wp_pure]
    refine ⟨xs, s, ?_, hkept₂, by rw [hs, hlength]⟩
    split <;> exact hheard
  cases s with
  | found => exact hcounted rfl
  | matched t => exact hcounted rfl
  | timedOut => exact ⟨xs, .timedOut, hheard, hkept₂, rfl⟩

/-- **How a scan of the networks goes.** Either the list is not asked for, and none is kept; or it is read as
the module sends it, and what was read of its entries is kept. -/
inductive Scanned (d : Driver Bench) : Except Fault Nat → Driver Bench → Prop
  | unasked {f : Fault} {d' : Driver Bench} (asked : askForList.run d = .ok (.error f) d')
      (kept : d'.networks = []) : Scanned d (.error f) d'
  | heard {d₁ d' : Driver Bench} {xs : List Place} {s : Scan}
      (asked : askForList.run d = .ok (.ok ()) d₁)
      (heard : Heard maxNetworks d₁.engine.device.stream xs s d'.engine.device.stream)
      (kept : d'.networks = xs.map (·.reading.network)) : Scanned d (reported xs s) d'

variable {d' : Driver Bench} {r : Except Fault Nat}

theorem listNetworks_scanned (hrun : listNetworks.run d = .ok r d') : Scanned d r d' := by
  have hask : wp True askForList.run _ d := wp_askForList Bench.ledger d
  have hscanned : wp True listNetworks.run (Scanned d) d := by
    rw [listNetworks_eq, Attempt.wp_run, Attempt.wp_bind]
    refine wp_mono (wp_and_result hask) ?_
    rintro (f | ⟨⟩) d₁ ⟨hkept, hasked⟩
    · exact .unasked hasked hkept
    · have hread := wp_weaken (wp_readList_heard hkept.1) fun _ => trivial
      refine Attempt.wp_run.1 (wp_mono hread ?_)
      rintro _ d₂ ⟨xs, s, hheard, hnetworks, rfl⟩
      exact .heard hasked hheard hnetworks
  exact wp_of_ok hscanned hrun

/-! ### Scans that return -/

theorem PassesScan.of_step (h : d.PassesScan)
    (htimeouts : d'.engine.timeouts = d.engine.timeouts)
    (hstep : d'.engine.device.step = d.engine.device.step) : d'.PassesScan where
  send := htimeouts ▸ h.send.of_step hstep
  scan := htimeouts ▸ h.scan.of_step hstep
  field := htimeouts ▸ h.field.of_step hstep

/-- The list is asked for, or the transmitter does not take the question in time. -/
theorem PassesScan.returns_askForList (h : d.PassesScan) :
    Attempt.wp False askForList (fun _ d' => d'.networks = [] ∧ d'.PassesScan) (fun _ _ => True) d := by
  have hfits : "AT+CWLAP".utf8ByteSize ≤ commandLimit := by decide
  unfold askForList
  rw [Engine.transmitLine_eq hfits, Attempt.wp_bind]
  refine Attempt.wp_lift.2 ?_
  show wp False (onEngine (onDevice (Device.record _ _))) _ d
  rw [wp_onEngine, wp_onDevice, Bench.wp_record]
  generalize hb : (if d.engine.device.verbosity.keeps _ then _ else d.engine.device) = b
  have hlogged : b.step = d.engine.device.step := by
    rw [← hb]
    split <;> rfl
  simp only [Attempt.wp_bind, Attempt.wp_modify, Attempt.wp_lift, wp_onEngine, wp_tryEngine]
  refine wp_mono (Engine.returns_drain true _ (.refl _)) ?_
  rintro _ e₁ ⟨htimeouts, hstep⟩
  have hpasses : ({ d with engine := e₁, networks := [] } : Driver Bench).PassesScan :=
    h.of_step htimeouts (hstep.trans hlogged)
  refine Attempt.wp_mono (Attempt.wp_run.1 (Engine.returns_transmit _ hpasses.send)) ?_ fun _ _ _ => trivial
  rintro _ e₂ ⟨w, hmoves⟩
  exact ⟨trivial, hpasses.of_step hmoves.timeouts hmoves.device⟩

/-- **A scan of the networks returns**, whatever the module sends and whenever it comes, if the clock passes
its timeouts. -/
theorem PassesScan.exists_listNetworks (h : d.PassesScan) :
    ∃ r d', listNetworks.run d = .ok r d' := by
  have hreturns : wp False listNetworks.run (fun _ _ => True) d := by
    rw [listNetworks_eq, Attempt.wp_run, Attempt.wp_bind]
    refine Attempt.wp_mono h.returns_askForList ?_ fun _ _ _ => trivial
    rintro _ d₁ ⟨hnetworks, hpasses⟩
    refine Attempt.wp_run.1 (wp_weaken (wp_mono (wp_readList_heard hnetworks) fun _ _ _ => trivial) ?_)
    exact fun hnever => hnever hpasses
  obtain ⟨r, d', hrun, -⟩ := wp_false_iff.1 hreturns
  exact ⟨r, d', hrun⟩

end Driver

end EspWifi
