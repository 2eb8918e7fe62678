import EspWifi.Proofs.Outcome
import EspWifi.Session.Bench

/-!
# A settled bench

A bench is settled when all bytes have arrived and its clock moves by one with each look at it. What a
program reads there is what waits, in order, and no wait is cut short.

* `Bench.wp_read` and its like: what the operations of any bench do.
* `Bench.Holds`: a settled bench and the bytes that wait on it.
* `Bench.Holds.elapsed`: the clock counts the looks at it, up to its full range.
-/

namespace EspWifi

open Run

variable {cut : Prop}

namespace Bench

variable {b : Bench} {w : Bytes} {α : Type}

/-- What the clock shows at the next look. -/
def now (b : Bench) : UInt32 := b.origin + b.ticks.toUInt32

/-! ### The operations of a bench -/

theorem wp_available {Q : Nat → Bench → Prop} :
    wp cut Device.available Q b ↔ Q (b.deliver.rx.length + b.ghost) b.deliver := Iff.rfl

theorem wp_read {Q : Option UInt8 → Bench → Prop} :
    wp cut Device.read Q b ↔
      Q b.deliver.rx.head? { b.deliver with rx := b.deliver.rx.tail } := Iff.rfl

theorem wp_peek {Q : Option UInt8 → Bench → Prop} :
    wp cut Device.peek Q b ↔ Q b.deliver.rx.head? b.deliver := Iff.rfl

theorem wp_millis {Q : UInt32 → Bench → Prop} :
    wp cut Device.millis Q b ↔ Q b.now { b with ticks := b.ticks + b.step } := Iff.rfl

theorem wp_record {Q : Unit → Bench → Prop} {level : Level} {message : String} :
    wp cut (Device.record level message) Q b ↔
      Q () (if b.verbosity.keeps level then { b with records := (level, message) :: b.records }
        else b) := Iff.rfl

/-- A wait moves the clock forward, and nothing else. -/
theorem wp_delay {Q : Unit → Bench → Prop} {ms : UInt32}
    (hQ : ∀ ticks, b.ticks ≤ ticks → Q () { b with ticks := ticks }) :
    wp True (Device.delay ms) Q b := by
  show wp True (do if (← get).busy then @busyWait Bench sleeper ms else sleeper.delay ms) Q b
  rw [wp_bind, wp_get, wp_ite]
  split
  case isFalse => exact hQ _ (Nat.le_add_right _ _)
  have look : ∀ start b', wp True (@elapsed Bench sleeper start)
      (fun _ b'' => b'' = { b' with ticks := b'.ticks + b'.step }) b' := fun _ _ => rfl
  unfold busyWait
  rw [wp_bind]
  refine wp_loop (I := fun _ () b' => ∃ ticks, b.ticks ≤ ticks ∧ b' = { b with ticks := ticks })
    (fun _ _ _ => trivial) ?_ _ _ _ ⟨_, Nat.le_add_right _ _, rfl⟩
  rintro _ ⟨⟩ _ ⟨ticks, hticks, rfl⟩
  rw [wp_bind]
  refine wp_mono (look _ _) ?_
  rintro t _ rfl
  have hlater : b.ticks ≤ ticks + b.step := Nat.le_add_right_of_le hticks
  rw [wp_ite]
  split
  · exact ⟨_, hlater, rfl⟩
  · exact hQ _ hlater

/-- **A count of looks compares with a timeout as a number**, as long as the wait has not gone on for
longer than the timeout. -/
theorem lt_timeout_iff {n : Nat} {timeout : UInt32} (hn : n ≤ max 1 timeout.toNat) :
    n.toUInt32 < timeout ↔ n < timeout.toNat := by
  have := timeout.toNat_lt
  rw [UInt32.lt_iff_toNat_lt, Nat.toUInt32, UInt32.toNat_ofNat', Nat.mod_eq_of_lt (by omega)]

theorem timeout_le_iff {n : Nat} {timeout : UInt32} (hn : n ≤ max 1 timeout.toNat) :
    timeout ≤ n.toUInt32 ↔ timeout.toNat ≤ n := by
  rw [← UInt32.not_lt, lt_timeout_iff hn, Nat.not_lt]

/-! ### Settled benches -/

/-- **All bytes have arrived and `w` waits**; the clock moves by one with each look. -/
structure Holds (b : Bench) (w : Bytes) : Prop where
  rx : b.rx = w
  arrivals : b.arrivals = {}
  step : b.step = 1

namespace Holds

theorem deliver (h : b.Holds w) : b.deliver = b := by
  unfold Bench.deliver
  rw [h.arrivals]
  rfl

theorem available (h : b.Holds w) {Q : Nat → Bench → Prop} :
    wp cut Device.available Q b ↔ Q (w.length + b.ghost) b := by
  rw [wp_available, h.deliver, h.rx]

theorem peek (h : b.Holds w) {Q : Option UInt8 → Bench → Prop} :
    wp cut Device.peek Q b ↔ Q w.head? b := by
  rw [wp_peek, h.deliver, h.rx]

theorem read (h : b.Holds w) {Q : Option UInt8 → Bench → Prop}
    (hQ : ∀ b' : Bench, b'.Holds w.tail → b'.now = b.now → Q w.head? b') :
    wp cut Device.read Q b := by
  rw [wp_read, h.deliver, h.rx]
  exact hQ _ ⟨rfl, h.arrivals, h.step⟩ rfl

theorem millis (h : b.Holds w) {Q : UInt32 → Bench → Prop}
    (hQ : ∀ b' : Bench, b'.Holds w → b'.now = b.now + 1 → Q b.now b') :
    wp cut Device.millis Q b := by
  rw [wp_millis, h.step]
  refine hQ _ ⟨h.rx, h.arrivals, rfl⟩ ?_
  show b.origin + UInt32.ofNat (b.ticks + 1) = b.now + 1
  rw [UInt32.ofNat_add, ← UInt32.add_assoc]
  rfl

theorem record (h : b.Holds w) {Q : Unit → Bench → Prop} {level : Level} {message : String}
    (hQ : ∀ b' : Bench, b'.Holds w → b'.now = b.now → Q () b') :
    wp cut (Device.record level message) Q b := by
  rw [wp_record]
  split
  · exact hQ _ ⟨h.rx, h.arrivals, h.step⟩ rfl
  · exact hQ _ h rfl

/-- **The clock counts the looks at it.** The `n`-th look after the one that showed `start` shows that
`n` milliseconds have passed. -/
theorem elapsed (h : b.Holds w) {start : UInt32} {n : Nat} (hn : b.now - start = n.toUInt32)
    {Q : UInt32 → Bench → Prop}
    (hQ : ∀ b' : Bench, b'.Holds w → b'.now - start = (n + 1).toUInt32 → Q n.toUInt32 b') :
    wp cut (EspWifi.elapsed start) Q b := by
  unfold EspWifi.elapsed
  rw [wp_bind]
  refine h.millis fun b' hb' hnow => ?_
  rw [wp_pure, hn]
  refine hQ b' hb' ?_
  have hnext : b.now + 1 - start = b.now - start + 1 := by grind
  rw [hnow, hnext, hn]
  exact (UInt32.ofNat_add n 1).symm

/-- A wait takes time, and that is all. -/
theorem delay (h : b.Holds w) {ms : UInt32} {Q : Unit → Bench → Prop}
    (hQ : ∀ b' : Bench, b'.Holds w → Q () b') : wp cut (Device.delay ms) Q b := by
  by_cases hbusy : b.busy = true
  case neg =>
    show wp cut (do if (← get).busy then @busyWait Bench sleeper ms else sleeper.delay ms) Q b
    rw [wp_bind, wp_get, if_neg hbusy]
    exact hQ _ ⟨h.rx, h.arrivals, h.step⟩
  show wp cut (do if (← get).busy then @busyWait Bench sleeper ms else sleeper.delay ms) Q b
  rw [wp_bind, wp_get, if_pos hbusy]
  unfold busyWait
  rw [wp_bind]
  refine h.millis fun b₁ h₁ hnow => ?_
  -- the `k`-th look shows `k`, and no look before the last one shows `ms` or more
  refine wp_loop (I := fun n () b' => ∃ k, k + n = ms.toNat + 2 ∧ k ≤ max 1 ms.toNat ∧
    b'.Holds w ∧ b'.now - b.now = k.toUInt32) ?_ ?_ _ _ _ ⟨1, by omega, by omega, h₁, ?_⟩
  · rintro _ _ ⟨k, hk, hle, -⟩
    omega
  · rintro n ⟨⟩ b₂ ⟨k, hk, hle, h₂, hk₂⟩
    rw [wp_bind]
    refine h₂.elapsed hk₂ fun b₃ h₃ hk₃ => ?_
    rw [wp_ite]
    split
    · rename_i hlt
      have := (lt_timeout_iff hle).1 hlt
      exact ⟨k + 1, by omega, by omega, h₃, hk₃⟩
    · exact hQ _ h₃
  · rw [hnow]
    grind

end Holds

end Bench

end EspWifi
