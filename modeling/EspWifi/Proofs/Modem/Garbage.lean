import EspWifi.Proofs.At.Pauses
import EspWifi.Proofs.Modem.Attention

/-!
# Garbage before a number

Reading a number skips what cannot start one, and waits for each byte anew. So bytes that belong to no
number keep it waiting, and a header with it: the timeout of a field bounds the pause between two bytes and
not the wait for a digit.

* `Engine.heard`: the bytes that come before the first pause that is as long as the timeout.
* `Engine.readInt_until_pause`: **what is read from them, and how long it takes.**
* `Engine.lateDigit_read`: a digit is read that comes long after the timeout.
* `Packet.read_kept_waiting`: **there is no bound on how long a header is waited for.**
-/

namespace EspWifi

open Run Numeral

namespace Engine

variable {e : Engine Bench}

/-- **The bytes that come before the first pause that is as long as the timeout of a field**, each with the
tick at which it is seen. -/
def heard (e : Engine Bench) : List (Nat × UInt8) := e.device.inTime (patience e.timeouts.field)

/-- **Bytes that start no number are skipped up to the pause**, and then none is read. -/
theorem readInt_of_idle (hstep : e.device.step = 1) (hidle : ∀ y ∈ e.heard, starts y.2 = false) :
    ∃ e', readInt e = .ok none e' ∧
      e'.device.ticks = lastSeen e.device.ticks e.heard + patience e.timeouts.field + 1 := by
  have hskip : ∀ b ∈ e.heard.map (·.2), starts b = false := by
    intro b hb
    obtain ⟨y, hy, rfl⟩ := List.mem_map.1 hb
    exact hidle y hy
  obtain ⟨e', seen, left, hrun, hread, hleft, hticks⟩ := readInt_pausing hstep
  rw [← heard, parse_of_idle hskip] at hrun hleft
  obtain rfl : left = [] := List.map_eq_nil_iff.1 hleft
  have hseen : e.heard = seen := hread.inTime.trans (List.append_nil seen)
  refine ⟨e', hrun, ?_⟩
  rw [hticks, doneAt, hseen]

end Engine

namespace Packet

variable {e e' : Engine Bench}

/-- If the first number of a header is not read, the header is given up at once. -/
theorem read_of_missing (h : Engine.readInt e = .ok none e') : read.run e = .ok none e' := by
  have hgiven : wp False (read : OptionT (Run (Engine Bench)) Packet).run
      (fun p e'' => p = none ∧ e'' = e') e := by
    unfold read Engine.fieldTimeout readByte
    rw [wp_run_bind, wp_run_lift, wp_bind, wp_get, wp_pure, Option.elim_some, wp_run_bind, wp_run_bind,
      wp_run_mk, wp_iff_of_ok h]
    exact ⟨rfl, rfl⟩
  obtain ⟨_, _, hrun, rfl, rfl⟩ := wp_false_iff.1 hgiven
  exact hrun

end Packet

namespace Engine

variable {e : Engine Bench}

/-- **A number is looked for until the first pause.** Reading returns, with the number that stands in the
bytes that come before that pause if one does, however late its digits are. It is done when the byte behind
the number is seen or the pause is over, and takes up to the timeout for each byte and for the pause. A
header that begins there is read or given up as well, and given up at once if no number is read. -/
theorem readInt_until_pause (hstep : e.device.step = 1) : ∃ r e', readInt e = .ok r e' ∧
    (∀ i, r = some i ↔ ∃ (t : Token) (rest : Bytes), e.heard.map (·.2) = t.bytes ++ rest ∧
      (∀ b ∈ rest.head?, isDigitByte b = false) ∧ t.number.value = i ∧
      int32Min ≤ i ∧ i ≤ int32Max) ∧
    ((∀ y ∈ e.heard, isDigitByte y.2 = false) → r = none) ∧
    (∃ p e'', Packet.read.run e = .ok p e'' ∧ (r = none → p = none ∧ e'' = e')) ∧
    (∃ seen left, e.heard = seen ++ left ∧ e.device.stream = seen.map (·.2) ++ e'.device.stream ∧
      e'.device.ticks = doneAt (patience e.timeouts.field) e.device.ticks seen left) ∧
    ((∀ y ∈ e.heard, starts y.2 = false) →
      e'.device.ticks = lastSeen e.device.ticks e.heard + patience e.timeouts.field + 1) ∧
    e'.device.ticks ≤ e.device.ticks + (e.heard.length + 1) * patience e.timeouts.field + 1 := by
  obtain ⟨e', seen, left, hrun, hread, hleft, hticks⟩ := readInt_pausing hstep
  have hpos : 0 < patience e.timeouts.field := Nat.le_max_left _ _
  refine ⟨_, e', hrun, fun i => fst_parse_eq_some_iff, fun hnone => ?_, ?_,
    ⟨seen, left, hread.inTime, hread.stream, hticks⟩, fun hidle => ?_,
    hticks ▸ doneAt_le hpos hread.inTime⟩
  · rw [Option.eq_none_iff_forall_ne_some]
    intro i hi
    obtain ⟨t, rest, hheard, -⟩ := fst_parse_eq_some_iff.1 hi
    obtain ⟨b, hmem, hdigit⟩ := t.exists_isDigitByte
    obtain ⟨y, hy, rfl⟩ := List.mem_map.1 (hheard ▸ List.mem_append_left rest hmem)
    rw [hnone y hy] at hdigit
    cases hdigit
  · obtain ⟨p, e'', hheader, -⟩ :=
      (Packet.returns_read (Bench.passes_of_step_one hstep _)).exists_run (.refl e)
    refine ⟨p, e'', hheader, fun hnone => ?_⟩
    rw [hnone] at hrun
    have hgiven := Packet.read_of_missing hrun
    rw [hheader] at hgiven
    exact EStateM.Result.ok.inj hgiven
  · obtain ⟨e'', hrun'', htime⟩ := readInt_of_idle hstep hidle
    rw [hrun] at hrun''
    obtain ⟨-, rfl⟩ := EStateM.Result.ok.inj hrun''
    exact htime

/-- A line on which two bytes come that belong to no number, and nothing after them. -/
def idling : Engine Bench := { device := Bench.schedule {} [(0, utf8 "x"), (900, utf8 "y")] }

theorem readInt_until_pause_idling : ∃ e', readInt idling = .ok none e' ∧
    Packet.read.run idling = .ok none e' ∧ e'.device.ticks = 1901 := by
  obtain ⟨r, e', hrun, -, hnone, ⟨p, e'', hheader, hgiven⟩, -, hticks, -⟩ :=
    readInt_until_pause (e := idling) (by decide +kernel)
  obtain rfl := hnone (by decide +kernel)
  obtain ⟨rfl, rfl⟩ := hgiven rfl
  have htime : lastSeen idling.device.ticks idling.heard + patience idling.timeouts.field + 1 = 1901 := by
    decide +kernel
  have hdone := hticks (by decide +kernel)
  exact ⟨_, hrun, hheader, hdone.trans htime⟩

/-- A line on which a digit comes after two bytes that belong to no number. -/
def lateDigit : Engine Bench :=
  { device := Bench.schedule {} [(0, utf8 "x"), (800, utf8 "x"), (1600, utf8 "5")] }

/-- **A digit is read that comes long after the timeout**: each of the bytes before it was waited for anew. -/
theorem lateDigit_read :
    (∀ y ∈ lateDigit.device.timeline, isDigitByte y.2 = true →
      lateDigit.device.ticks + lateDigit.timeouts.field.toNat < y.1) ∧
    ∃ e', readInt lateDigit = .ok (some 5) e' := by
  refine ⟨by decide +kernel, ?_⟩
  obtain ⟨e', seen, left, hrun, -⟩ := readInt_pausing (e := lateDigit) (by decide +kernel)
  have hfive : (parse ((lateDigit.device.inTime (patience lateDigit.timeouts.field)).map (·.2))).1 =
      some 5 := by decide +kernel
  rw [hfive] at hrun
  exact ⟨e', hrun⟩

end Engine

/-! ### Headers that are waited for -/

/-- A byte that is part of no number, each `p` ticks after the one before it. -/
def trickle (t p : Nat) : Nat → Chunks
  | 0 => []
  | n + 1 => (t + p, [ascii 'x']) :: trickle (t + p) p n

variable {t p n : Nat}

theorem snd_of_mem_trickle {y : Nat × UInt8} (h : y ∈ timelineFrom t (trickle t p n)) :
    y.2 = ascii 'x' := by
  induction n generalizing t with
  | zero => cases h
  | succ n ih =>
    have hmax : max t (t + p) = t + p := Nat.max_eq_right (Nat.le_add_right t p)
    rw [trickle, timelineFrom, hmax] at h
    rcases List.mem_append.1 h with h | h
    · rw [List.mem_singleton.1 h]
    · exact ih h

/-- The last byte of a trickle is seen when all of its pauses are over. -/
theorem lastSeen_trickle (hp : 0 < p) :
    lastSeen t (beforePause p t (timelineFrom t (trickle t p n))) = t + n * p := by
  induction n generalizing t with
  | zero => simp [trickle, timelineFrom, beforePause, lastSeen]
  | succ n ih =>
    have hmax : max t (t + p) = t + p := Nat.max_eq_right (Nat.le_add_right t p)
    have hseen : max (t + 1) (t + p) = t + p := Nat.max_eq_right (Nat.add_le_add_left hp t)
    rw [trickle, timelineFrom, hmax, List.map_singleton, List.singleton_append, beforePause,
      if_pos (Nat.le_refl _), hseen]
    show lastSeen (t + p) _ = _
    rw [ih, Nat.succ_mul]
    omega

/-- A line on which a byte that is part of no number comes `n` times, each time when the wait for it is all
but over. -/
def trickling (n : Nat) : Engine Bench :=
  { device := { arrivals := ⟨trickle 0 (patience ({} : Timeouts).field) n⟩ } }

/-- **There is no bound on how long a header is waited for** when bytes come that belong to no number. -/
theorem Packet.read_kept_waiting (n : Nat) : (∀ y ∈ (trickling n).device.timeline, starts y.2 = false) ∧
    ∃ e', Packet.read.run (trickling n) = .ok none e' ∧
      (n + 1) * patience (trickling n).timeouts.field < e'.device.ticks := by
  have hskip : ∀ y ∈ (trickling n).device.timeline, starts y.2 = false := by
    intro y hy
    rw [snd_of_mem_trickle hy]
    decide
  have hidle : ∀ y ∈ (trickling n).heard, starts y.2 = false := by
    intro y hy
    obtain ⟨z, hz, hyz⟩ := List.mem_map.1 (beforePause_front.subset (List.mem_map_of_mem hy))
    rw [← hyz]
    exact hskip z hz
  obtain ⟨e', hrun, hticks⟩ := Engine.readInt_of_idle (e := trickling n) rfl hidle
  refine ⟨hskip, e', read_of_missing hrun, ?_⟩
  have hlast : lastSeen 0 (trickling n).heard = 0 + n * patience (trickling n).timeouts.field :=
    lastSeen_trickle (Nat.le_max_left _ _)
  rw [show (trickling n).device.ticks = 0 from rfl, hlast] at hticks
  rw [hticks, Nat.succ_mul]
  omega

end EspWifi
