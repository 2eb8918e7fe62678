import EspWifi.Proofs.Session.Clock
import EspWifi.Proofs.Session.Stream

/-!
# Scans and the naive search

A scan sees no more than the last bytes that it has read, and it looks at the clock before each of them.
The naive search keeps all bytes and asks after each of them whether they end with a tag.

* `Scan.Completes`, `Scan.known?`: the tag that was asked for, and the known tags, at the end of bytes.
* `Scan.Matches`: the bytes at which the naive search stops.
* `Engine.wp_awaitTag_clock`: how often a scan that runs out of time has looked at the clock.
* `Engine.awaitTag_naive`: **a scan ends where the naive search stops**, and with its answer.
-/

namespace EspWifi

open Run

namespace Scan

variable {tag : Option Bytes} {known : Bool} {c : Bytes}

/-- **The bytes end with the tag that was asked for.** A tag that is empty or longer than the window is
never complete. -/
def Completes (tag : Option Bytes) (c : Bytes) : Prop :=
  ∃ t, tag = some t ∧ t ≠ [] ∧ t.length ≤ windowSize ∧ t <:+ c

/-- The first of the known tags that the bytes end with. -/
def known? (c : Bytes) : Option Tag := Tag.all.find? fun t => decide (t.bytes <:+ c)

/-- **The naive search stops at these bytes**: they end with a tag that it looks for. -/
def Matches (tag : Option Bytes) (known : Bool) (c : Bytes) : Prop :=
  Completes tag c ∨ known = true ∧ ∃ t : Tag, t.bytes <:+ c

theorem any_endsWith_last :
    tag.any (Window.last c : Window windowSize).endsWith = true ↔ Completes tag c := by
  unfold Completes
  cases tag with
  | none =>
    constructor
    · exact nofun
    · rintro ⟨_, ⟨⟩, _⟩
  | some t =>
    rw [Option.any_some, Window.endsWith_last]
    constructor
    · exact fun h => ⟨t, rfl, h⟩
    · rintro ⟨_, ⟨⟩, h⟩
      exact h

/-- A known tag fits into the window, so it is seen whole. -/
theorem find?_endsWith_last (c : Bytes) :
    (Tag.all.find? fun t => (Window.last c : Window windowSize).endsWith t.bytes) = known? c := by
  have hfits : ∀ t : Tag, t.bytes ≠ [] ∧ t.bytes.length ≤ windowSize := by
    intro t
    cases t <;> decide
  have hsame : (fun t : Tag => (Window.last c : Window windowSize).endsWith t.bytes) =
      fun t => decide (t.bytes <:+ c) := by
    funext t
    rw [Bool.eq_iff_iff, Window.endsWith_last, decide_eq_true_eq]
    exact ⟨fun h => h.2.2, fun h => ⟨(hfits t).1, (hfits t).2, h⟩⟩
  rw [hsame]
  rfl

theorem known?_eq_none_iff : known? c = none ↔ ∀ t : Tag, ¬ t.bytes <:+ c := by
  unfold known?
  rw [List.find?_eq_none]
  constructor
  · intro h t ht
    exact h t t.mem_all (decide_eq_true ht)
  · intro h t _ ht
    exact h t (of_decide_eq_true ht)

/-- The verdict, without a window. -/
theorem of_eq (c : Bytes) (tag : Option Bytes) (known : Bool) [Decidable (Completes tag c)] :
    of c tag known =
      if Completes tag c then some found else if known then (known? c).map matched else none := by
  unfold of verdict
  rw [find?_endsWith_last]
  by_cases h : Completes tag c
  · rw [if_pos h, if_pos (any_endsWith_last.2 h)]
  · rw [if_neg h, if_neg (fun hany => h (any_endsWith_last.1 hany))]

theorem of_eq_found_iff : of c tag known = some found ↔ Completes tag c := by
  classical
  rw [of_eq]
  by_cases h : Completes tag c
  · simp [h]
  · rw [if_neg h]
    cases known <;> simp [h]

theorem of_eq_matched_iff {t : Tag} :
    of c tag known = some (matched t) ↔
      known = true ∧ ¬ Completes tag c ∧ known? c = some t := by
  classical
  rw [of_eq]
  by_cases h : Completes tag c
  · simp [h]
  · rw [if_neg h]
    cases known <;> simp [h]

/-- Bytes never amount to a timeout. -/
theorem verdict_ne_timedOut {n : Nat} {w : Window n} : verdict w tag known ≠ some timedOut := by
  unfold verdict
  split
  · simp
  · split <;> simp

/-- **There is no verdict exactly where the naive search goes on.** -/
theorem of_eq_none_iff : of c tag known = none ↔ ¬ Matches tag known c := by
  classical
  rw [of_eq]
  unfold Matches
  by_cases h : Completes tag c
  · simp [h]
  · rw [if_neg h]
    cases known with
    | false => simp [h]
    | true => simp [h, known?_eq_none_iff]

end Scan

namespace Engine

variable {e : Engine Bench} {timeout : UInt32} {tag : Option Bytes} {known : Bool}

/-- A log record takes no time. -/
theorem wp_record_after {cut : Prop} {b : Bench} {k : Nat} (h : b.After e.device k) {level : Level}
    {message : String} {Q : Unit → Engine Bench → Prop}
    (hQ : ∀ b', b.After b' k → Q () { e with device := b' }) :
    wp cut (MonadLog.record level message) Q e := by
  show wp cut (onDevice (Device.record level message)) Q e
  rw [wp_onDevice]
  exact h.record hQ

/-- **How often a scan looks at the clock.** It looks once before its rounds and once in each of them, so
a scan that runs out of time has seen that at its last look. Nothing but a timeout that never passes
keeps a scan from ending. -/
theorem wp_awaitTag_clock :
    wp (¬ e.device.Passes timeout) (awaitTag timeout tag known) (fun s e' => s = .timedOut →
      ∃ k, e.device.After e'.device (k + 1) ∧ timeout ≤ e.device.shows k - e.device.now) e := by
  unfold awaitTag settling backlog
  rw [wp_bind, wp_modify, wp_bind, wp_onDevice, Bench.wp_millis]
  simp only [wp_bind, wp_get, wp_pure]
  -- `k` looks were taken, and none of them in a round before this one showed the timeout
  refine wp_loop (I := fun n () e' => ∃ k, timeout.toNat + 2 ≤ n + k ∧ e.device.After e'.device k ∧
    Unpassed e.device.shows e.device.now timeout k) ?_ ?_ _ _ _ ⟨1, by omega, .tick (.refl _), .first⟩
  · rintro ⟨⟩ e' ⟨k, hrounds, -, hunpassed⟩ hpasses
    have hle := hunpassed.le hpasses.first
    omega
  · rintro n ⟨⟩ e₁ ⟨k, hrounds, h₁, hunpassed⟩
    rw [wp_bind, wp_onDevice]
    refine h₁.elapsed fun b₂ h₂ => ?_
    rw [wp_ite]
    split
    case isFalse hshown =>
      rw [wp_bind]
      refine wp_record_after h₂ fun b₃ h₃ _ => ?_
      exact ⟨k, h₃, UInt32.not_lt.1 hshown⟩
    case isTrue hshown =>
      have again : ∀ e' : Engine Bench, e.device.After e'.device (k + 1) →
          ∃ k, timeout.toNat + 2 ≤ n + k ∧ e.device.After e'.device k ∧
            Unpassed e.device.shows e.device.now timeout k :=
        fun e' h' => ⟨k + 1, by omega, h', hunpassed.next (UInt32.not_le.2 hshown)⟩
      rw [wp_bind, wp_onDevice]
      refine h₂.read fun x b₃ h₃ => ?_
      cases x with
      | none => exact again _ h₃
      | some x =>
        simp only [wp_bind, wp_modify, wp_get]
        refine wp_record_after h₃ fun b₄ h₄ => ?_
        split
        · rename_i s hs
          intro htimedOut
          exact absurd (htimedOut ▸ hs) Scan.verdict_ne_timedOut
        · exact again _ h₄

/-- **What a scan has read**: bytes with a verdict, or bytes of which no beginning has one. -/
theorem wp_awaitTag_stream :
    wp True (awaitTag timeout tag known) (fun s e' => ∃ c,
      e.device.stream = c ++ e'.device.stream ∧ e'.window = .last c ∧
        (Scan.Decided tag known c s ∨ s = .timedOut ∧ Scan.Silent tag known c)) e := by
  refine Bench.streamLedger.wp_awaitTag_decided (fun c s e' h hw hs => ?_) fun c e' h hw hs => ?_
  · exact ⟨c, (h.device rfl).stream, hw, .inl hs⟩
  · exact ⟨c, (h.device rfl).stream, hw, .inr ⟨rfl, hs⟩⟩

/-- **A scan ends where the naive search stops, and with its answer.** The bytes come at any times. If the
timeout ever passes on the clock, the scan ends. When it has ended, it has read some bytes `c`; all
others are still to come, in order, and the window holds the last bytes of `c`, as many as fit. It has
found the tag that was asked for exactly if `c` ends with it, and a known tag exactly if known tags are
looked for, `c` does not end with the tag that was asked for, and this is the first of the known tags
with which `c` ends; then the naive search stops at no proper beginning of `c`. It has run out of time
only if the naive search does not stop at all, and if the clock has shown at the last look that the
timeout has passed since the first. -/
theorem awaitTag_naive (e : Engine Bench) (timeout : UInt32) (tag : Option Bytes) (known : Bool) :
    (e.device.Passes timeout → ∃ s e', awaitTag timeout tag known e = .ok s e') ∧
    ∀ s e', awaitTag timeout tag known e = .ok s e' → ∃ c,
      e.device.stream = c ++ e'.device.stream ∧
      e'.window.bytes = c.drop (c.length - windowSize) ∧
      (s = .found ↔ Scan.Completes tag c) ∧
      (∀ t, s = .matched t ↔ known = true ∧ ¬ Scan.Completes tag c ∧ Scan.known? c = some t) ∧
      (s ≠ .timedOut → ∀ p, p <+: c → p ≠ c → ¬ Scan.Matches tag known p) ∧
      (s = .timedOut → (∀ p, p <+: c → ¬ Scan.Matches tag known p) ∧
        ∃ k, e'.device.ticks = e.device.ticks + (k + 1) * e.device.step ∧
          timeout ≤ e.device.shows k - e.device.now) := by
  have hclock := @wp_awaitTag_clock e timeout tag known
  constructor
  · intro hpasses
    unfold wp at hclock
    cases hrun : awaitTag timeout tag known e with
    | ok s e' => exact ⟨s, e', rfl⟩
    | error h e' =>
      rw [hrun] at hclock
      exact absurd hpasses hclock
  intro s e' hrun
  have htime := wp_of_ok hclock hrun
  obtain ⟨c, hstream, hwindow, hread⟩ := wp_of_ok wp_awaitTag_stream hrun
  refine ⟨c, hstream, by rw [hwindow, Window.bytes_last], ?_⟩
  rcases hread with hdecided | ⟨rfl, hsilent⟩
  · have hs : Scan.of c tag known = some s := hdecided.verdict
    have hne : s ≠ .timedOut := by
      rintro rfl
      exact Scan.verdict_ne_timedOut hs
    refine ⟨?_, fun t => ?_, fun _ p hp hpc => ?_, fun htimedOut => absurd htimedOut hne⟩
    · have hfound : Scan.of c tag known = some .found ↔ Scan.Completes tag c := Scan.of_eq_found_iff
      rw [← hfound, hs, Option.some_inj]
    · rw [← Scan.of_eq_matched_iff, hs, Option.some_inj]
    · exact Scan.of_eq_none_iff.1 (hdecided.first p hp hpc)
  · have hnone : Scan.of c tag known = none := hsilent c (List.prefix_refl c)
    refine ⟨?_, fun t => ?_, fun hne => absurd rfl hne, fun _ => ⟨fun p hp => ?_, ?_⟩⟩
    · have hfound : Scan.of c tag known = some .found ↔ Scan.Completes tag c := Scan.of_eq_found_iff
      rw [← hfound, hnone]
      simp
    · rw [← Scan.of_eq_matched_iff, hnone]
      simp
    · exact Scan.of_eq_none_iff.1 (hsilent p hp)
    · obtain ⟨k, hafter, hpassed⟩ := htime rfl
      exact ⟨k, hafter.ticks, hpassed⟩

/-- A response that comes in two pieces, with the beginning of a packet right behind it. -/
def inPieces : Engine Bench where
  device := { arrivals := ⟨[(3, utf8 "AT\r\n\r\nO"), (9, utf8 "K\r\n+IPD")]⟩ }

theorem awaitTag_inPieces :
    inPieces.device.Passes 1000 ∧
      ∃ e' c, awaitTag 1000 (some (utf8 "+")) true inPieces = .ok (.matched .ok) e' ∧
        inPieces.device.stream = c ++ utf8 "+IPD" ∧ Scan.known? c = some .ok ∧
        ∀ p, p <+: c → p ≠ c → ¬ Scan.Matches (some (utf8 "+")) true p := by
  have hpasses : inPieces.device.Passes 1000 := Bench.passes_of_step (by decide) (by decide)
  have hvalue : value? (do
      let s ← awaitTag 1000 (some (utf8 "+")) true
      return (s, (← get).device.stream)) inPieces = some (.matched .ok, utf8 "+IPD") := by
    decide +kernel
  obtain ⟨s, e', hrun, hlast⟩ := value?_bind_eq_some.1 hvalue
  obtain ⟨rfl, hrest⟩ : s = .matched .ok ∧ e'.device.stream = utf8 "+IPD" := by
    simpa using Option.some.inj hlast
  obtain ⟨c, hstream, -, -, hmatched, hfirst, -⟩ := (awaitTag_naive inPieces 1000 _ true).2 _ _ hrun
  rw [hrest] at hstream
  exact ⟨hpasses, e', c, hrun, hstream, ((hmatched .ok).1 rfl).2.2, hfirst (by simp)⟩

end Engine

end EspWifi
