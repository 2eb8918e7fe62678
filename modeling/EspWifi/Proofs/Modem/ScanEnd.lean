import EspWifi.Proofs.Modem.Transcript

/-!
# How a scan of the networks ends

A list is over when ten entries were read, when a known tag comes before the next entry, or when neither
comes in time. The driver takes any known tag for the end of a list: a list that the module breaks off with
an error is reported as one that is complete.

* `EndedBy`: the tag that ends a list.
* `Heard.found_iff`, `Heard.matched_iff`: what the end of a list says about it.
* `Driver.listNetworks_ended`: **what is reported, and when a list that was refused is not.**
-/

namespace EspWifi

open Run

open Driver in
/-- **The list that was read from `w` is ended by the tag `t`**, which comes behind the last of its entries
and before another one. -/
def EndedBy (t : Tag) (w : Bytes) (xs : List Place) (left : Bytes) : Prop :=
  xs.length < maxNetworks ∧ ∃ c, (xs.getLast?.map (·.rest)).getD w = c ++ left ∧
    Scan.Decided (some entryStart) true c (.matched t)

namespace Heard

variable {room : Nat} {w left : Bytes} {xs : List Place} {s : Scan} {t : Tag}

/-- A list that is not ended by the module is full. -/
theorem found_iff (h : Heard room w xs s left) : s = .found ↔ xs.length = room := by
  induction h with
  | full => simp
  | ended taken unfound => simp [unfound]
  | entry start taken tail ih => rw [ih, List.length_cons, Nat.succ_inj]

/-- **A list that is ended by a tag has that tag behind its last entry.** -/
theorem matched_iff (h : Heard room w xs s left) :
    s = .matched t ↔ xs.length < room ∧ ∃ c, (xs.getLast?.map (·.rest)).getD w = c ++ left ∧
      Scan.Decided (some Driver.entryStart) true c (.matched t) := by
  induction h with
  | full => simp
  | @ended room c left taken unfound =>
    rw [Scan.outcome_eq_iff (by simp)]
    constructor
    · intro hmatched
      exact ⟨Nat.succ_pos room, c, rfl, taken.decided hmatched⟩
    · rintro ⟨-, c', hc, hdecided⟩
      obtain rfl : c = c' := List.append_cancel_right hc
      exact hdecided.verdict
  | @entry room lead rest left x later s start taken tail ih =>
    have hlast : ((⟨x, rest⟩ :: later).getLast?.map Place.rest).getD (lead ++ (x.bytes ++ rest)) =
        (later.getLast?.map Place.rest).getD rest := by
      rw [List.getLast?_cons]
      cases later.getLast? <;> rfl
    rw [ih, hlast, List.length_cons, Nat.succ_lt_succ_iff]

end Heard

namespace Driver

variable {d d' : Driver Bench} {r : Except Fault Nat} {xs : List Place} {s : Scan} {n : Nat}

theorem reported_eq_ok_iff : reported xs s = .ok n ↔ s ≠ .timedOut ∧ n = xs.length := by
  cases s <;> simp [reported, eq_comm]

theorem reported_eq_error_iff {f : Fault} :
    reported xs s = .error f ↔ s = .timedOut ∧ f = .timeout := by
  cases s <;> simp [reported, eq_comm]

/-- **How a scan of the networks is reported.** It returns if the clock passes its timeouts. If the list was
asked for, the networks that were kept are counted when there is no room for another one, or when any known
tag ended the list; if neither was the case, the scan has timed out. So a count stands for a list that is
complete or full, and a list that was refused is an error, exactly if no tag other than `ok` ended the
list. -/
theorem listNetworks_ended (d : Driver Bench) :
    (d.PassesScan → ∃ r d', listNetworks.run d = .ok r d') ∧
    ∀ r d', listNetworks.run d = .ok r d' →
      (∃ f, askForList.run d = .ok (.error f) d' ∧ r = .error f) ∨
      ∃ d₁ xs s, askForList.run d = .ok (.ok ()) d₁ ∧
        Heard maxNetworks d₁.engine.device.stream xs s d'.engine.device.stream ∧
        d'.networks = xs.map (·.reading.network) ∧
        (∀ n, r = .ok n ↔ n = xs.length ∧ (xs.length = maxNetworks ∨
          ∃ t, EndedBy t d₁.engine.device.stream xs d'.engine.device.stream)) ∧
        (∀ f, r = .error f ↔ f = .timeout ∧ xs.length ≠ maxNetworks ∧
          ∀ t, ¬ EndedBy t d₁.engine.device.stream xs d'.engine.device.stream) ∧
        (((∀ n, r = .ok n → EndedBy .ok d₁.engine.device.stream xs d'.engine.device.stream ∨
              d'.networks.length = maxNetworks) ∧
            ∀ t, t ≠ .ok → EndedBy t d₁.engine.device.stream xs d'.engine.device.stream →
              ∃ f, r = .error f) ↔
          ∀ t, t ≠ .ok → ¬ EndedBy t d₁.engine.device.stream xs d'.engine.device.stream) := by
  refine ⟨fun h => h.exists_listNetworks, fun r d' hrun => ?_⟩
  cases listNetworks_scanned hrun with
  | unasked asked kept => exact .inl ⟨_, asked, rfl⟩
  | @heard d₁ _ xs s asked hheard kept =>
    have hfull : s = .found ↔ xs.length = maxNetworks := hheard.found_iff
    have hended (t : Tag) :
        s = .matched t ↔ EndedBy t d₁.engine.device.stream xs d'.engine.device.stream :=
      hheard.matched_iff
    have hcounted (n : Nat) : reported xs s = .ok n ↔ n = xs.length ∧ (xs.length = maxNetworks ∨
        ∃ t, EndedBy t d₁.engine.device.stream xs d'.engine.device.stream) := by
      simp only [reported_eq_ok_iff, ← hfull, ← hended]
      cases s <;> simp
    refine .inr ⟨d₁, xs, s, asked, hheard, kept, hcounted, fun f => ?_, ?_,
      fun hok => ⟨fun n hn => ?_, ?_⟩⟩
    · simp only [reported_eq_error_iff, Ne, ← hfull, ← hended]
      cases s <;> simp
    · rintro ⟨-, hrefused⟩ t ht hend
      obtain ⟨f, hf⟩ := hrefused t ht hend
      have hn := (hcounted xs.length).2 ⟨rfl, .inr ⟨t, hend⟩⟩
      rw [hf] at hn
      cases hn
    · rw [kept, List.length_map]
      obtain ⟨-, hfull | ⟨t, hend⟩⟩ := (hcounted n).1 hn
      · exact .inr hfull
      · by_cases ht : t = .ok
        · exact .inl (ht ▸ hend)
        · exact absurd hend (hok t ht)
    · intro t ht hend
      exact absurd hend (hok t ht)

/-- A driver whose module sends these bytes when it is asked. -/
def sayingBack (reply : Bytes) : Driver Bench where
  engine := .sayingBack reply

theorem passesScan_sayingBack (reply : Bytes) : (sayingBack reply).PassesScan := by
  constructor <;> exact Bench.passes_of_step_one rfl _

/-- **A scan that was refused finds no networks.** The module answers with an error, and with nothing but
that; the list is reported as one that is complete. -/
theorem listNetworks_refused :
    ∃ d₁ d', askForList.run (sayingBack Tag.error.bytes) = .ok (.ok ()) d₁ ∧
      d₁.engine.device.stream = Tag.error.bytes ∧
      listNetworks.run (sayingBack Tag.error.bytes) = .ok (.ok 0) d' ∧ d'.networks = [] ∧
      EndedBy .error d₁.engine.device.stream [] d'.engine.device.stream := by
  have hasked : shown? askForList.run (fun r d => (r, d.engine.device.stream))
      (sayingBack Tag.error.bytes) = some (.ok (), Tag.error.bytes) := by decide +kernel
  have hlisted : shown? listNetworks.run (fun r d => (r, d.networks, d.engine.device.stream))
      (sayingBack Tag.error.bytes) = some (.ok 0, [], []) := by decide +kernel
  obtain ⟨_, d₁, hask, hd₁⟩ := shown?_eq_some.1 hasked
  obtain ⟨rfl, hstream₁⟩ := Prod.mk.inj hd₁
  obtain ⟨_, d', hlist, hd'⟩ := shown?_eq_some.1 hlisted
  obtain ⟨rfl, hrest⟩ := Prod.mk.inj hd'
  obtain ⟨hnetworks, hstream'⟩ := Prod.mk.inj hrest
  have hdecided : Scan.Decided (some entryStart) true Tag.error.bytes (.matched .error) :=
    Scan.decided_of_inits (by decide) (by decide)
  refine ⟨d₁, d', hask, hstream₁, hlist, hnetworks, by decide, Tag.error.bytes, ?_, hdecided⟩
  rw [hstream₁, hstream']
  rfl

/-- A list of one network. -/
def oneNetwork : Bytes := utf8 "+CWLAP:(3,\"home\",-58,\"1a:fe:34:00:00:01\",6)\r\n\r\nOK\r\n"

theorem listNetworks_oneNetwork :
    (sayingBack oneNetwork).PassesScan ∧ ∃ d₁ d' xs t,
      askForList.run (sayingBack oneNetwork) = .ok (.ok ()) d₁ ∧
      listNetworks.run (sayingBack oneNetwork) = .ok (.ok 1) d' ∧ xs.length = 1 ∧
      EndedBy t d₁.engine.device.stream xs d'.engine.device.stream := by
  have hpasses : (sayingBack oneNetwork).PassesScan := passesScan_sayingBack _
  obtain ⟨r, d', hrun⟩ := (listNetworks_ended (sayingBack oneNetwork)).1 hpasses
  have hvalue : value? listNetworks.run (sayingBack oneNetwork) = some (.ok 1) := by decide +kernel
  obtain rfl : r = .ok 1 := by
    obtain ⟨d'', hrun'⟩ := value?_eq_some.1 hvalue
    rw [hrun] at hrun'
    cases hrun'
    rfl
  rcases (listNetworks_ended (sayingBack oneNetwork)).2 _ _ hrun with ⟨f, -, hf⟩ | hread
  · cases hf
  obtain ⟨d₁, xs, s, hasked, -, -, hcounted, -, -⟩ := hread
  obtain ⟨hlength, hfull | ⟨t, hend⟩⟩ := (hcounted 1).1 rfl
  · rw [← hlength] at hfull
    cases hfull
  · exact ⟨hpasses, d₁, d', xs, t, hasked, hrun, hlength.symm, hend⟩

end Driver

end EspWifi
