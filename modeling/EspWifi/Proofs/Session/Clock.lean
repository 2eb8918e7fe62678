import EspWifi.Proofs.Link.Queued
import Mathlib.Data.Finset.Card
import Mathlib.Data.Nat.Find
import Mathlib.Data.Nat.ModEq

/-!
# The clock of a bench

The clock of a bench moves by a fixed step with each look at it, and it wraps around. A wait is over at
the first look that shows that its timeout has passed; a step that is too long leaps over that, in
every round of the clock.

* `Unpassed`: a wait that is still on.
* `Bench.shows`: what the clock shows, look by look.
* `Bench.Passes`: some look shows that a timeout has passed; `passes_of_step`: clocks that pass.
* `Bench.Passes.first`: **the first look that does is not later than the timeout is long.**
* `Bench.After`: a state in which the clock was looked at some number of times.
* `Bench.Waits`: all bytes have arrived, and these wait.
-/

namespace EspWifi

open Run

variable {cut : Prop}

/-! ### Waits -/

/-- **None of the looks up to the `k`-th has shown that `timeout` has passed** since the clock showed
`start`. -/
def Unpassed (shows : Nat → UInt32) (start timeout : UInt32) (k : Nat) : Prop :=
  ∀ j, 1 ≤ j → j < k → ¬ timeout ≤ shows j - start

namespace Unpassed

variable {shows : Nat → UInt32} {start timeout : UInt32} {k n : Nat}

theorem first : Unpassed shows start timeout 1 := fun _ hj hlt => absurd hlt (Nat.not_lt.2 hj)

theorem next (h : Unpassed shows start timeout k) (hlook : ¬ timeout ≤ shows k - start) :
    Unpassed shows start timeout (k + 1) := by
  intro j hj hlt
  rcases Nat.lt_succ_iff_lt_or_eq.1 hlt with hlt | rfl
  · exact h j hj hlt
  · exact hlook

/-- The wait is over after a look that shows it. -/
theorem le (h : Unpassed shows start timeout k)
    (hlook : ∃ j, 1 ≤ j ∧ j ≤ n ∧ timeout ≤ shows j - start) : k ≤ n := by
  obtain ⟨j, hj, hle, hshown⟩ := hlook
  refine Nat.le_of_not_lt fun hlt => ?_
  exact h j hj (Nat.lt_of_le_of_lt hle hlt) hshown

end Unpassed

namespace Bench

variable {b b' : Bench} {timeout : UInt32} {k : Nat}

/-- What the clock shows `k` looks after the next one. -/
def shows (b : Bench) (k : Nat) : UInt32 := b.origin + (b.ticks + k * b.step).toUInt32

/-- **Some look at the clock shows that `timeout` has passed** since the next one. -/
def Passes (b : Bench) (timeout : UInt32) : Prop := ∃ k, timeout ≤ b.shows k - b.now

theorem shows_sub_now (b : Bench) (k : Nat) : b.shows k - b.now = (k * b.step).toUInt32 := by
  have hadd : (b.ticks + k * b.step).toUInt32 = b.ticks.toUInt32 + (k * b.step).toUInt32 :=
    UInt32.ofNat_add _ _
  unfold shows now
  rw [hadd]
  grind

theorem le_shows_iff : timeout ≤ b.shows k - b.now ↔ timeout.toNat ≤ k * b.step % 2 ^ 32 := by
  rw [shows_sub_now, UInt32.le_iff_toNat_le, Nat.toUInt32, UInt32.toNat_ofNat']

/-- **A clock passes every timeout that leaves room for a step**, if it moves at all. -/
theorem passes_of_step (hstep : 0 < b.step) (hroom : timeout.toNat + b.step ≤ 2 ^ 32) :
    b.Passes timeout := by
  obtain ⟨k, hk, hlt⟩ : ∃ k, timeout.toNat ≤ k * b.step ∧ k * b.step < timeout.toNat + b.step := by
    have hdiv := Nat.div_add_mod (timeout.toNat + b.step - 1) b.step
    have hmod := Nat.mod_lt (timeout.toNat + b.step - 1) hstep
    rw [Nat.mul_comm] at hdiv
    exact ⟨(timeout.toNat + b.step - 1) / b.step, by omega, by omega⟩
  refine ⟨k, le_shows_iff.2 ?_⟩
  rw [Nat.mod_eq_of_lt (by omega)]
  exact hk

/-- **A clock that moves by one with each look passes every timeout.** -/
theorem passes_of_step_one (hstep : b.step = 1) (timeout : UInt32) : b.Passes timeout := by
  have hlt := timeout.toNat_lt
  exact passes_of_step (by omega) (by omega)

/-- Which timeouts pass is up to the step of the clock. -/
theorem Passes.of_step (h : b.Passes timeout) (hstep : b'.step = b.step) : b'.Passes timeout := by
  obtain ⟨k, hk⟩ := h
  refine ⟨k, le_shows_iff.2 ?_⟩
  rw [hstep]
  exact le_shows_iff.1 hk

/-- **A timeout that passes has passed after as many looks as it is long**, or at the first one if it is
zero: until it has passed, no two looks show the same. -/
theorem Passes.first (h : b.Passes timeout) :
    ∃ k, 1 ≤ k ∧ k ≤ timeout.toNat + 1 ∧ timeout ≤ b.shows k - b.now := by
  have hex : ∃ k, timeout.toNat ≤ k * b.step % 2 ^ 32 := by
    obtain ⟨k, hk⟩ := h
    exact ⟨k, le_shows_iff.1 hk⟩
  have hfirst := Nat.find_spec hex
  have hearlier : ∀ j, j < Nat.find hex → j * b.step % 2 ^ 32 < timeout.toNat := by
    intro j hj
    exact Nat.lt_of_not_le (Nat.find_min hex hj)
  generalize Nat.find hex = k at hfirst hearlier
  rcases Nat.eq_zero_or_pos k with rfl | hpos
  · have hzero : timeout.toNat = 0 := by simpa using hfirst
    refine ⟨1, Nat.le_refl 1, by omega, le_shows_iff.2 ?_⟩
    rw [hzero]
    exact Nat.zero_le _
  refine ⟨k, hpos, Nat.le_succ_of_le ?_, le_shows_iff.2 hfirst⟩
  -- two looks that show the same would bring the first one forward
  have distinct : ∀ i j, i < j → j < k → i * b.step % 2 ^ 32 ≠ j * b.step % 2 ^ 32 := by
    intro i j hij hjk heq
    have hsplit : j * b.step = i * b.step + (j - i) * b.step := by
      rw [← Nat.add_mul]
      congr 1
      omega
    have hturn : 0 ≡ (j - i) * b.step [MOD 2 ^ 32] := by
      have hmod : i * b.step + 0 ≡ i * b.step + (j - i) * b.step [MOD 2 ^ 32] := by
        rw [← hsplit]
        exact heq
      exact Nat.ModEq.add_left_cancel' _ hmod
    have hsame : (k - (j - i)) * b.step ≡ k * b.step [MOD 2 ^ 32] := by
      have hk : k * b.step = (k - (j - i)) * b.step + (j - i) * b.step := by
        rw [← Nat.add_mul]
        congr 1
        omega
      rw [hk]
      exact Nat.ModEq.add_left ((k - (j - i)) * b.step) hturn
    have hlt := hearlier (k - (j - i)) (by omega)
    rw [hsame] at hlt
    omega
  have hcard : (Finset.range k).card ≤ (Finset.range timeout.toNat).card := by
    refine Finset.card_le_card_of_injOn (fun j => j * b.step % 2 ^ 32) ?_ ?_
    · intro j hj
      exact Finset.mem_coe.2 (Finset.mem_range.2 (hearlier j (Finset.mem_range.1 hj)))
    · intro i hi j hj heq
      have hi := Finset.mem_range.1 hi
      have hj := Finset.mem_range.1 hj
      rcases Nat.lt_trichotomy i j with hlt | rfl | hlt
      · exact absurd heq (distinct i j hlt hj)
      · rfl
      · exact absurd heq.symm (distinct j i hlt hi)
  rwa [Finset.card_range, Finset.card_range] at hcard

/-- **The clock of `b'` was looked at `k` times since `b`**, and nothing else has moved it. -/
structure After (b b' : Bench) (k : Nat) : Prop where
  ticks : b'.ticks = b.ticks + k * b.step
  origin : b'.origin = b.origin
  step : b'.step = b.step

/-- The transmitter takes no time. -/
theorem after_transmit (b : Bench) (bytes : Bytes) : b.After (b.transmit bytes).2 0 := by
  have same {b' : Bench} (hticks : b'.ticks = b.ticks) (horigin : b'.origin = b.origin)
      (hstep : b'.step = b.step) : b.After b' 0 :=
    ⟨by rw [hticks, Nat.zero_mul, Nat.add_zero], horigin, hstep⟩
  unfold transmit
  dsimp only
  split
  · exact same rfl rfl rfl
  · exact same rfl rfl rfl
  · unfold schedule
    rw [deliver_eq, deliver_eq]
    exact same rfl rfl rfl

namespace After

theorem refl (b : Bench) : b.After b 0 := ⟨by rw [Nat.zero_mul, Nat.add_zero], rfl, rfl⟩

theorem now (h : b.After b' k) : b'.now = b.shows k := by
  rw [Bench.now, h.origin, h.ticks, shows]

/-- A look moves the clock. -/
theorem tick (h : b.After b' k) : b.After b'.tick.2 (k + 1) := by
  refine ⟨?_, h.origin, h.step⟩
  show b'.ticks + b'.step = b.ticks + (k + 1) * b.step
  rw [h.ticks, h.step, Nat.add_assoc, Nat.succ_mul]

/-- What does not look at the clock takes no time. -/
theorem still {b'' : Bench} (h : b.After b' k) (h' : b'.After b'' 0) : b.After b'' k where
  ticks := by rw [h'.ticks, Nat.zero_mul, Nat.add_zero, h.ticks]
  origin := h'.origin.trans h.origin
  step := h'.step.trans h.step

theorem deliver (h : b.After b' k) : b.After b'.deliver k := by
  rw [deliver_eq]
  exact ⟨h.ticks, h.origin, h.step⟩

/-- A look shows what the clock has come to. -/
theorem millis (h : b.After b' k) {Q : UInt32 → Bench → Prop}
    (hQ : ∀ b'', b.After b'' (k + 1) → Q (b.shows k) b'') : wp cut Device.millis Q b' := by
  rw [wp_millis, h.now]
  exact hQ _ h.tick

theorem elapsed (h : b.After b' k) {Q : UInt32 → Bench → Prop}
    (hQ : ∀ b'', b.After b'' (k + 1) → Q (b.shows k - b.now) b'') :
    wp cut (EspWifi.elapsed b.now) Q b' := by
  unfold EspWifi.elapsed
  rw [wp_bind]
  exact h.millis hQ

theorem read (h : b.After b' k) {Q : Option UInt8 → Bench → Prop}
    (hQ : ∀ x b'', b.After b'' k → Q x b'') : wp cut Device.read Q b' := by
  rw [wp_read]
  exact hQ _ _ ⟨h.deliver.ticks, h.deliver.origin, h.deliver.step⟩

theorem record (h : b.After b' k) {Q : Unit → Bench → Prop} {level : Level} {message : String}
    (hQ : ∀ b'', b.After b'' k → Q () b'') : wp cut (Device.record level message) Q b' := by
  rw [wp_record]
  refine hQ _ ?_
  split
  · exact ⟨h.ticks, h.origin, h.step⟩
  · exact h

theorem write (h : b.After b' k) {bytes : Bytes} {Q : Nat → Bench → Prop}
    (hQ : ∀ n b'', b.After b'' k → Q n b'') : wp cut (Device.write bytes) Q b' :=
  hQ _ _ (h.still (b'.after_transmit bytes))

end After

/-! ### Bytes that wait, whatever the step of the clock -/

variable {w : Bytes}

/-- **All bytes have arrived and `w` waits.** The clock may have any step. -/
structure Waits (b : Bench) (w : Bytes) : Prop where
  rx : b.rx = w
  arrivals : b.arrivals = {}

theorem Holds.waits (h : b.Holds w) : b.Waits w := ⟨h.rx, h.arrivals⟩

namespace Waits

theorem holds (h : b.Waits w) (hstep : b.step = 1) : b.Holds w := ⟨h.rx, h.arrivals, hstep⟩

theorem deliver (h : b.Waits w) : b.deliver = b := by
  unfold Bench.deliver
  rw [h.arrivals]
  rfl

theorem backlog (h : b.Waits w) : Device.backlog b = w.length := by
  show b.rx.length + total b.arrivals.items = w.length
  rw [h.rx, h.arrivals]
  rfl

theorem elapsed (h : b'.Waits w) (hafter : b.After b' k) {Q : UInt32 → Bench → Prop}
    (hQ : ∀ b'', b''.Waits w → b.After b'' (k + 1) → Q (b.shows k - b.now) b'') :
    wp cut (EspWifi.elapsed b.now) Q b' := by
  unfold EspWifi.elapsed
  rw [wp_bind, wp_millis, wp_pure, hafter.now]
  exact hQ _ ⟨h.rx, h.arrivals⟩ hafter.tick

theorem read {x : UInt8} (h : b'.Waits (x :: w)) (hafter : b.After b' k)
    {Q : Option UInt8 → Bench → Prop}
    (hQ : ∀ b'', b''.Waits w → b.After b'' k → Q (some x) b'') : wp cut Device.read Q b' := by
  rw [wp_read, h.deliver, h.rx]
  exact hQ _ ⟨rfl, h.arrivals⟩ ⟨hafter.ticks, hafter.origin, hafter.step⟩

theorem record (h : b'.Waits w) (hafter : b.After b' k) {Q : Unit → Bench → Prop} {level : Level}
    {message : String} (hQ : ∀ b'', b''.Waits w → b.After b'' k → Q () b'') :
    wp cut (Device.record level message) Q b' := by
  rw [wp_record]
  split
  · exact hQ _ ⟨h.rx, h.arrivals⟩ ⟨hafter.ticks, hafter.origin, hafter.step⟩
  · exact hQ _ h hafter

end Waits

end Bench

end EspWifi
