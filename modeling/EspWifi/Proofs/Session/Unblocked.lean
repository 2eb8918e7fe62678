import EspWifi.Proofs.At.Recorded
import EspWifi.Proofs.Session.Clock

/-!
# The transmitter of a bench

The transmitter of a bench meets its limits one after the other, whatever is asked of the bench. One that
was never limited accepts whatever it is offered, however the clock moves and whatever the module sends.
One that turns down only a few offers in a row never stays blocked, but it may be too slow for a line.

* `Bench.Spends`: some of the limits were met; `Bench.Spends.of_step`: **nothing else happens to the
  transmitter**.
* `Bench.Free`: the transmitter accepts everything; `Bench.Free.keepsUp`: a line is sent in time.
* `Bench.Yields`: no more than some number of offers are turned down in a row;
  `Bench.Yields.neverBlocked`: **the transmitter never stays blocked** if that takes less than the time for
  sending.
-/

namespace EspWifi.Bench

open Run

variable {b b' b'' : Bench}

/-- The pins of a bench lead nowhere. -/
instance : Pins Bench where
  makeOutput _ := pure ()
  drive _ _ := pure ()

/-! ### Limits that were met -/

/-- **As many bytes are taken as the next limit allows**, whatever the module answers. -/
theorem transmit_acceptance (b : Bench) (bytes : Bytes) :
    (b.transmit bytes).1 = (b.acceptance bytes.length).1 ∧
      (b.transmit bytes).2.limits = (b.acceptance bytes.length).2 ∧
      (b.transmit bytes).2.blocked = b.blocked := by
  unfold transmit
  dsimp only
  split
  · exact ⟨rfl, rfl, rfl⟩
  · exact ⟨rfl, rfl, rfl⟩
  · unfold schedule
    rw [deliver_eq, deliver_eq]
    exact ⟨rfl, rfl, rfl⟩

/-- **The transmitter of `b'` has the limits of `b` before it, less some that were met.** -/
structure Spends (b b' : Bench) : Prop where
  limits : b'.limits <:+ b.limits
  blocked : b'.blocked = b.blocked
  step : b'.step = b.step

namespace Spends

theorem refl (b : Bench) : b.Spends b := ⟨List.suffix_refl _, rfl, rfl⟩

theorem trans (h : b.Spends b') (h' : b'.Spends b'') : b.Spends b'' where
  limits := h'.limits.trans h.limits
  blocked := h'.blocked.trans h.blocked
  step := h'.step.trans h.step

theorem deliver (h : b.Spends b') : b.Spends b'.deliver := by
  rw [deliver_eq]
  exact ⟨h.limits, h.blocked, h.step⟩

/-- An offer meets one limit at most, and what the module answers does not change that. -/
theorem transmit (b : Bench) (bytes : Bytes) : b.Spends (b.transmit bytes).2 := by
  obtain ⟨-, hlimits, hblocked⟩ := b.transmit_acceptance bytes
  refine ⟨?_, hblocked, (b.after_transmit bytes).step⟩
  rw [hlimits]
  unfold acceptance
  split
  · rename_i hlimits
    rw [hlimits]
    exact List.suffix_cons _ _
  · exact List.nil_suffix

/-- A clock that waits by reading itself moves nothing else. -/
theorem busyWait (b : Bench) (ms : UInt32) :
    ends b.Spends (@busyWait Bench sleeper ms) (fun _ => b.Spends) b := by
  have millis {b' : Bench} (h : b.Spends b') :
      ends b.Spends sleeper.millis (fun _ => b.Spends) b' := ⟨h.limits, h.blocked, h.step⟩
  unfold EspWifi.busyWait
  refine ends_then (millis (refl b)) fun start b' h => ?_
  refine ends_loop (I := fun _ => b.Spends) (fun _ _ h => h) (fun _ b' h => ?_) _ _ _ h
  unfold elapsed
  rw [ends_bind, ends_bind]
  refine ends_mono (millis h) (fun _ h => h) fun now b' h => ?_
  rw [ends_pure]
  split <;> exact h

/-- **Nothing the device is asked to do gives the transmitter new limits.** -/
theorem of_step (h : Device.Step b b') : b.Spends b' := by
  have same : b.Spends b := refl b
  cases h with
  | available => exact same.deliver
  | read => exact ⟨same.deliver.limits, same.deliver.blocked, same.deliver.step⟩
  | peek => exact same.deliver
  | write bytes => exact transmit b bytes
  | takeErrors =>
    show b.Spends (if b.bare then (.empty, b) else (b.errors, { b with errors := .empty })).2
    split <;> exact ⟨same.limits, rfl, rfl⟩
  | millis => exact ⟨same.limits, rfl, rfl⟩
  | delay ms =>
    refine ends_final.1 ?_
    show ends b.Spends (if b.busy then @EspWifi.busyWait Bench sleeper ms else sleeper.delay ms) _ b
    split
    · exact busyWait b ms
    · exact ⟨same.limits, rfl, rfl⟩
  | record level message =>
    show b.Spends (if b.verbosity.keeps level then
      { b with records := (level, message) :: b.records } else b)
    split <;> exact ⟨same.limits, rfl, rfl⟩
  | makeOutput => exact same
  | drive => exact same

theorem of_reaches (h : Device.Reaches b b') : b.Spends b' := by
  induction h with
  | refl => exact refl b
  | tail _ hstep ih => exact ih.trans (of_step hstep)

end Spends

/-! ### Free transmitters -/

/-- **The transmitter accepts whatever it is offered.** -/
structure Free (b : Bench) : Prop where
  limits : b.limits = []
  blocked : b.blocked = false

namespace Free

theorem of_spends (h : b.Free) (hspends : b.Spends b') : b'.Free where
  limits := by
    have hlimits := hspends.limits
    rw [h.limits] at hlimits
    exact List.suffix_nil.1 hlimits
  blocked := hspends.blocked.trans h.blocked

theorem transmit (h : b.Free) (bytes : Bytes) : (b.transmit bytes).1 = bytes.length := by
  rw [(b.transmit_acceptance bytes).1]
  simp [acceptance, h.limits, h.blocked]

/-- Whatever was to be sent was sent in time. -/
theorem not_tooSlow (h : b.Free) (limit : UInt32) (bytes : Bytes) :
    ¬ Device.TooSlow limit b bytes := by
  refine Device.not_tooSlow h (fun b h => ⟨h.limits, h.blocked⟩) fun b bytes h hbytes => ?_
  show 0 < (b.transmit bytes).1 ∧ (b.transmit bytes).2.Free
  rw [h.transmit bytes]
  exact ⟨List.length_pos_iff.2 hbytes, h.of_spends (.transmit b bytes)⟩

/-- **A line is sent in time.** -/
theorem keepsUp (h : b.Free) : KeepsUp b :=
  fun _ hreaches bytes _ => (h.of_spends (.of_reaches hreaches)).not_tooSlow _ bytes

end Free

/-! ### Transmitters that turn down a few offers in a row -/

/-- **No more than `n` offers in a row are turned down.** -/
structure Yields (n : Nat) (b : Bench) : Prop where
  limits : ¬ List.replicate (n + 1) 0 <:+: b.limits
  blocked : b.blocked = false

/-- An offer that is turned down meets a limit of zero, and takes no time. -/
theorem limits_of_turnedDown {bytes : Bytes} (hb : b.blocked = false) (hbytes : bytes ≠ [])
    (offer : Device.write bytes b = .ok 0 b') :
    b.limits = 0 :: b'.limits ∧ b'.blocked = false ∧ b.After b' 0 := by
  have hwrite : Device.write bytes b = .ok (b.transmit bytes).1 (b.transmit bytes).2 := rfl
  rw [hwrite] at offer
  obtain ⟨hcount, rfl⟩ := EStateM.Result.ok.inj offer
  obtain ⟨htaken, hlimits, hblocked⟩ := b.transmit_acceptance bytes
  refine ⟨?_, hblocked.trans hb, b.after_transmit bytes⟩
  have hpos := List.length_pos_iff.2 hbytes
  rw [htaken] at hcount
  rw [hlimits]
  unfold acceptance at hcount ⊢
  split at hcount
  · rename_i limit rest heq
    obtain rfl : limit = 0 := by
      dsimp only at hcount
      omega
    exact heq
  · rw [hb] at hcount
    exact absurd hcount (Nat.ne_of_gt hpos)

/-- A look shows the clock and moves it. -/
theorem look_eq {now : UInt32} (clock : Device.millis b = .ok now b') : now = b.now ∧ b' = b.tick.2 := by
  cases clock
  exact ⟨rfl, rfl⟩

/-- **Offers that were all turned down met a limit of zero each.** The clock was looked at before the first
and after each of them. -/
theorem limits_of_offers {b₁ b₂ : Bench} {start limit : UInt32} {bytes : Bytes} (hlook : b.After b₁ 1)
    (hb : b₁.blocked = false) (hbytes : bytes ≠ [])
    (h : Device.Offers start limit b₁ bytes b₂ bytes) :
    ∃ k, b₁.limits = List.replicate k 0 ++ b₂.limits ∧ b₂.blocked = false ∧ b.After b₂ (k + 1) := by
  refine h.of_none_taken (I := fun b₂ => ∃ k, b₁.limits = List.replicate k 0 ++ b₂.limits ∧
    b₂.blocked = false ∧ b.After b₂ (k + 1)) hbytes ⟨0, rfl, hb, hlook⟩ ?_
  rintro b₂ b₃ b₄ now ⟨k, hlimits, hb₂, hafter⟩ offer clock
  obtain ⟨hzero, hb₃, hoffer⟩ := limits_of_turnedDown hb₂ hbytes offer
  obtain ⟨-, rfl⟩ := look_eq clock
  refine ⟨k + 1, ?_, hb₃, (hafter.still hoffer).tick⟩
  rw [hlimits, hzero, List.replicate_succ', List.append_assoc]
  rfl

namespace Yields

variable {n : Nat}

theorem of_spends (h : b.Yields n) (hspends : b.Spends b') : b'.Yields n where
  limits hzeros := h.limits (hzeros.trans hspends.limits.isInfix)
  blocked := hspends.blocked.trans h.blocked

/-- **The transmitter takes something before `limit` has passed**, if `n` looks at the clock take less. -/
theorem not_staysBlocked (h : b.Yields n) {limit : UInt32} (hlimit : n * b.step < limit.toNat)
    (bytes : Bytes) : ¬ Device.StaysBlocked limit b bytes := by
  rintro ⟨b₄, @⟨start, now, b₁, b₂, b₃, begins, offers, left, offer, clock, late⟩⟩
  obtain ⟨rfl, rfl⟩ := look_eq begins
  obtain ⟨k, hlimits, hb, hafter⟩ := limits_of_offers (After.refl b).tick h.blocked left offers
  obtain ⟨hzero, -, hoffer⟩ := limits_of_turnedDown hb left offer
  obtain ⟨rfl, -⟩ := look_eq clock
  -- the last offer was turned down, too
  have hzeros : List.replicate (k + 1) 0 <:+: b.limits := by
    refine ⟨[], b₃.limits, ?_⟩
    rw [List.nil_append, List.replicate_succ', List.append_assoc, List.singleton_append, ← hzero]
    exact hlimits.symm
  have hk : k + 1 ≤ n := by
    refine Nat.le_of_not_lt fun hlt => h.limits (List.IsInfix.trans ?_ hzeros)
    have hprefix : List.replicate (n + 1) 0 <+: List.replicate (k + 1) 0 := by
      rw [List.prefix_iff_eq_take, List.take_replicate, List.length_replicate,
        Nat.min_eq_left hlt]
    exact hprefix.isInfix
  rw [(hafter.still hoffer).now, le_shows_iff] at late
  have hpassed : (k + 1) * b.step ≤ n * b.step := Nat.mul_le_mul_right _ hk
  have hmod := Nat.mod_le ((k + 1) * b.step) (2 ^ 32)
  omega

theorem neverBlocked (h : b.Yields n) (hlimit : n * b.step < ({} : Timeouts).send.toNat) :
    NeverBlocked b := by
  intro b' hreaches bytes
  have hspends := Spends.of_reaches hreaches
  refine (h.of_spends hspends).not_staysBlocked ?_ bytes
  rwa [hspends.step]

end Yields

/-- **A slow transmitter.** The clock moves by 150 ms with each look at it. After some limits `ahead` three
offers are turned down before each byte that is taken, and in the time for sending that makes four bytes. -/
def slow (ahead : List Nat) : Bench where
  step := 150
  limits := ahead ++ (List.replicate 4 [0, 0, 0, 1]).flatten ++ [0, 0]

end EspWifi.Bench
