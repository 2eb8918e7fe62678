import EspWifi.Proofs.At.NaiveScan
import EspWifi.Proofs.At.Transmission

/-!
# Waits that end

The engine waits for a tag and for the transmitter, and gives either up when its timeout has passed. So
a wait ends on every clock that passes the timeout, whatever the module and the transmitter do.

* `Bench.pace`: the ledger of the clock, whose step nothing changes.
* `Engine.returns_awaitTag`, `Engine.returns_transmit`: **the waits of the engine end.**
-/

namespace EspWifi

open Run

namespace Bench

/-- **Nothing changes the step of the clock.** -/
def pace : Ledger Bench where
  moves b b' _ _ := b'.step = b.step
  refl _ := rfl
  trans h h' := h'.trans h
  available b := by rw [wp_available, deliver_eq]
  read b := by rw [wp_read, deliver_eq]
  peek b := by rw [wp_peek, deliver_eq]
  write b bytes := (b.after_transmit bytes).step
  takeErrors b := by
    show (if b.bare then (ReceiveErrors.empty, b) else _).2.step = b.step
    split <;> rfl
  millis _ := rfl
  delay _ _ := wp_delay fun _ _ => rfl
  record b level message := by
    rw [wp_record]
    split <;> rfl

end Bench

/-! ### Waits that end -/

namespace Engine

variable {e : Engine Bench} {timeout : UInt32}

/-- A scan ends with its timeout. -/
theorem returns_awaitTag {tag : Option Bytes} {known : Bool} (h : e.device.Passes timeout) :
    wp False (awaitTag timeout tag known) (fun _ e' => ∃ c, e.Moves Bench.pace e' c []) e := by
  have hmoves : wp True (awaitTag timeout tag known) (fun _ e' => ∃ c, e.Moves Bench.pace e' c []) e :=
    Bench.pace.wp_awaitTag_decided (fun c _ _ hc _ _ => ⟨c, hc⟩) fun c _ hc _ _ => ⟨c, hc⟩
  refine wp_of_returns hmoves (wp_mono (wp_weaken wp_awaitTag_clock fun hnever => hnever h) ?_)
  exact fun _ _ _ => trivial

theorem returns_skipPast {tag : Bytes} (h : e.device.Passes timeout) :
    wp False (skipPast tag timeout) (fun _ e' => ∃ c, e.Moves Bench.pace e' c []) e := by
  unfold skipPast
  rw [wp_bind]
  exact returns_awaitTag h

/-- **A transmission ends** with its timeout. -/
theorem returns_transmit (bytes : Bytes) (h : e.device.Passes e.timeouts.send) :
    wp False (transmit bytes).run (fun _ e' => ∃ w, e.Moves Bench.pace e' [] w) e := by
  have hmoves : Attempt.wp True (transmit bytes) (fun _ e' => ∃ w, e.Moves Bench.pace e' [] w)
      (fun _ e' => ∃ w, e.Moves Bench.pace e' [] w) e :=
    Bench.pace.wp_transmit (fun _ h => ⟨_, h⟩) fun w _ h _ => ⟨w, h⟩
  have hlook : ∃ k, 1 ≤ k ∧ k ≤ e.timeouts.send.toNat + 1 ∧
      e.timeouts.send ≤ e.device.shows k - e.device.shows 0 := by
    rw [← (Bench.After.refl e.device).now]
    exact h.first
  have hends : Attempt.wp False (transmit bytes) (fun _ _ => True) (fun _ _ => True) e :=
    ends_transmit e.device.counts (.refl _) hlook
  exact Attempt.wp_run.2 (wp_of_returns hmoves (Attempt.wp_run.2 hends))

end Engine

end EspWifi
