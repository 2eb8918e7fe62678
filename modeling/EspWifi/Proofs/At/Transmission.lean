import EspWifi.Proofs.Link.Ledger
import EspWifi.Proofs.Session.Clock
import EspWifi.Proofs.Session.Line

/-!
# Transmissions

The transmitter takes what it likes of the bytes that it is offered, and it may take none. The engine goes
on with what is left, and looks at the clock only when nothing was taken.

* `Device.Counts`: a clock whose looks can be counted, beside any transmitter.
* `Engine.ends_transmit`: a transmission ends when a look shows that its timeout has passed.
* `Engine.transmit_prefix`: **what is transmitted is a beginning of the bytes, each of them once.**
-/

namespace EspWifi

open Run

variable {σ : Type} [Device σ] {State : Nat → σ → Prop} {shows : Nat → UInt32}

/-- **The clock was looked at `k` times** where `State k` holds, and shows `shows k` at the next look. The
transmitter takes any part of what it is offered, which is no look at the clock. -/
structure Device.Counts (State : Nat → σ → Prop) (shows : Nat → UInt32) : Prop where
  millis {k : Nat} {d : σ} (h : State k d) :
    wp False Device.millis (fun now d' => now = shows k ∧ State (k + 1) d') d
  write {k : Nat} {d : σ} (h : State k d) (bytes : Bytes) :
    wp False (Device.write bytes) (fun _ d' => State k d') d

/-- The looks at the clock of a bench. -/
theorem Bench.counts (b : Bench) : Device.Counts (fun k b' => b.After b' k) b.shows where
  millis h := h.millis fun _ h' => ⟨rfl, h'⟩
  write h _ := h.write fun _ _ h' => h'

/-- **One that moves by one with each look counts the looks itself.** -/
theorem Bench.counts_by_one {b : Bench} (hstep : b.step = 1) :
    Device.Counts (fun k b' => b.After b' k) fun k => b.now + k.toUInt32 := by
  have hshows : b.shows = fun k => b.now + k.toUInt32 := by
    funext k
    have hpassed := b.shows_sub_now k
    rw [hstep, Nat.mul_one] at hpassed
    grind
  rw [← hshows]
  exact b.counts

namespace Engine

variable {e : Engine σ} {bytes : Bytes}

/-- **A transmission ends.** Each of its rounds gets rid of a byte, or it looks at the clock, and it is over
at the first look that shows that its timeout has passed. -/
theorem ends_transmit (hcounts : Device.Counts State shows) (hstart : State 0 e.device)
    (hlook : ∃ k, 1 ≤ k ∧ k ≤ e.timeouts.send.toNat + 1 ∧ e.timeouts.send ≤ shows k - shows 0) :
    Attempt.wp False (transmit bytes) (fun _ _ => True) (fun _ _ => True) e := by
  unfold transmit settling
  rw [Attempt.wp_mk, wp_bind, wp_onDevice]
  refine wp_mono (hcounts.millis hstart) ?_
  rintro start d₁ ⟨rfl, h₁⟩
  simp only [wp_bind, wp_get, wp_pure]
  generalize e.timeouts.send = limit at hlook ⊢
  -- `k` looks were taken, and none of them in a round before this one showed the timeout
  refine wp_loop (I := fun n rest e' => ∃ k, rest.length + limit.toNat + 3 ≤ n + k ∧
    State k e'.device ∧ Unpassed shows (shows 0) limit k) ?_ ?_ _ _ _ ?_
  · rintro rest e' ⟨k, hrounds, -, hunpassed⟩
    have hle := hunpassed.le hlook
    omega
  · rintro n rest e₁ ⟨k, hrounds, h, hunpassed⟩
    rw [wp_ite]
    split
    · trivial
    rename_i hrest
    rw [wp_bind, wp_onDevice]
    refine wp_mono (hcounts.write h rest) fun m d₂ h₂ => ?_
    cases m with
    | zero =>
      simp only [wp_bind, wp_onDevice, EspWifi.elapsed]
      refine wp_mono (hcounts.millis h₂) ?_
      rintro now d₃ ⟨rfl, h₃⟩
      rw [wp_pure, wp_ite]
      split
      · trivial
      rename_i hshown
      exact ⟨k + 1, by omega, h₃, hunpassed.next hshown⟩
    | succ m =>
      have hshorter : (rest.drop (m + 1)).length < rest.length := by
        have hpos : 0 < rest.length := List.length_pos_iff.2 fun hnil => hrest (by rw [hnil]; rfl)
        rw [List.length_drop]
        omega
      exact ⟨k, by omega, h₂, hunpassed⟩
  · exact ⟨1, by omega, h₁, .first⟩

/-- **A clock that advances by one with each look** shows in time that a timeout has passed. -/
theorem exists_look (origin timeout : UInt32) :
    ∃ k, 1 ≤ k ∧ k ≤ timeout.toNat + 1 ∧
      timeout ≤ origin + k.toUInt32 - (origin + Nat.toUInt32 0) := by
  refine ⟨max 1 timeout.toNat, Nat.le_max_left _ _, by omega, ?_⟩
  have hshown : origin + (max 1 timeout.toNat).toUInt32 - (origin + Nat.toUInt32 0) =
      (max 1 timeout.toNat).toUInt32 := by
    have hzero : Nat.toUInt32 0 = 0 := rfl
    grind
  rw [hshown]
  exact (Bench.timeout_le_iff (Nat.le_refl _)).2 (Nat.le_max_right _ _)

/-- **What is transmitted is a beginning of the bytes, each of them once.** Whatever the transmitter takes
of what it is offered, the bytes that it has taken when a transmission ends are a beginning of those that
were to be transmitted. They are all of them exactly if the transmission succeeds. It fails with a timeout
and in no other way, and only if the transmitter has just turned down what is left, and the clock shows
after that that the timeout has passed since the start. If the clock advances by one with each look, the
transmission ends. -/
theorem transmit_prefix (L : Ledger σ) (e : Engine σ) (bytes : Bytes) :
    (∀ r e', (transmit bytes).run e = .ok r e' → ∃ w rest, w ++ rest = bytes ∧
      e.Moves L e' [] w ∧ (r = .ok () ↔ w = bytes) ∧
      ∀ f, r = .error f → f = .timeout ∧
        Device.GivenUp e.timeouts.send e.device bytes rest e'.device) ∧
    ∀ (State : Nat → σ → Prop) (origin : UInt32),
      Device.Counts State (fun k => origin + k.toUInt32) → State 0 e.device →
        ∃ r e', (transmit bytes).run e = .ok r e' := by
  constructor
  · intro r e' hrun
    refine wp_of_ok (Q := fun r e' => ∃ w rest, w ++ rest = bytes ∧ e.Moves L e' [] w ∧
      (r = .ok () ↔ w = bytes) ∧ ∀ f, r = .error f → f = .timeout ∧
        Device.GivenUp e.timeouts.send e.device bytes rest e'.device)
      (Attempt.wp_run.2 (L.wp_transmit_offers (fun e₁ h₁ => ?_) fun w rest e₁ h₁ hw hgiven => ?_)) hrun
    · exact ⟨bytes, [], List.append_nil _, h₁, iff_of_true rfl rfl, nofun⟩
    · have hpart : w ≠ bytes := by
        obtain ⟨-, -, left, -, -, -⟩ := hgiven
        intro heq
        rw [heq] at hw
        exact left (List.append_cancel_left (hw.trans (List.append_nil bytes).symm))
      refine ⟨w, rest, hw, h₁, iff_of_false nofun hpart, ?_⟩
      rintro f ⟨⟩
      exact ⟨rfl, hgiven⟩
  · intro State origin hcounts hstart
    have hends : wp False (transmit bytes).run (fun _ _ => True) e :=
      Attempt.wp_run.2 (ends_transmit hcounts hstart (exists_look origin e.timeouts.send))
    obtain ⟨r, e', hrun, -⟩ := wp_false_iff.1 hends
    exact ⟨r, e', hrun⟩

/-- An engine whose transmitter takes no more than these numbers of bytes, one after the other, and after
that all of them or none. -/
def limited (limits : List Nat) (blocked : Bool) : Engine Bench where
  device := { limits := limits, blocked := blocked }
  timeouts := { send := 3 }

/-- Four bytes are taken two, one and one at a time, and of four bytes the last two are not taken. -/
theorem transmit_limited :
    (∃ e', (transmit [1, 2, 3, 4]).run (limited [0, 2, 0, 1] false) = .ok (.ok ()) e' ∧
      (limited [0, 2, 0, 1] false).Moves Bench.ledger e' [] [1, 2, 3, 4]) ∧
    ∃ e', (transmit [1, 2, 3, 4]).run (limited [0, 2] true) = .ok (.error .timeout) e' ∧
      (limited [0, 2] true).Moves Bench.ledger e' [] [1, 2] ∧
      Device.GivenUp 3 (limited [0, 2] true).device [1, 2, 3, 4] [3, 4] e'.device := by
  -- what was sent when the transmission has ended tells how it has ended
  have ends (limits : List Nat) (blocked : Bool) (sent : Bytes)
      (hsent : shown? (transmit [1, 2, 3, 4]).run (fun _ e' => e'.device.sent)
        (limited limits blocked) = some sent) :
      ∃ r e' rest, (transmit [1, 2, 3, 4]).run (limited limits blocked) = .ok r e' ∧
        sent ++ rest = [1, 2, 3, 4] ∧ (limited limits blocked).Moves Bench.ledger e' [] sent ∧
        (r = .ok () ↔ sent = [1, 2, 3, 4]) ∧ ∀ f, r = .error f → f = .timeout ∧
          Device.GivenUp 3 (limited limits blocked).device [1, 2, 3, 4] rest e'.device := by
    obtain ⟨hends, hreturns⟩ :=
      transmit_prefix Bench.ledger (limited limits blocked) [1, 2, 3, 4]
    obtain ⟨r, e', hrun⟩ := hreturns _ _ (Bench.counts_by_one rfl) (.refl _)
    obtain ⟨w, rest, hw, hmoves, hok, hfault⟩ := hends r e' hrun
    obtain ⟨r', e'', hrun', hshown⟩ := shown?_eq_some.1 hsent
    obtain ⟨rfl, rfl⟩ := EStateM.Result.ok.inj (hrun.symm.trans hrun')
    have heq : w = sent := by
      rw [← hshown, hmoves.device.2]
      rfl
    rw [heq] at hw hmoves hok
    exact ⟨r, e', rest, hrun, hw, hmoves, hok, hfault⟩
  constructor
  · obtain ⟨r, e', rest, hrun, -, hmoves, hok, -⟩ :=
      ends [0, 2, 0, 1] false [1, 2, 3, 4] (by decide +kernel)
    rw [hok.2 rfl] at hrun
    exact ⟨e', hrun, hmoves⟩
  · obtain ⟨r, e', rest, hrun, hrest, hmoves, hok, hfault⟩ :=
      ends [0, 2] true [1, 2] (by decide +kernel)
    have hrest : [1, 2] ++ rest = [1, 2] ++ [3, 4] := hrest
    obtain rfl := List.append_cancel_left hrest
    cases r with
    | ok _ => cases hok.1 rfl
    | error f =>
      obtain ⟨rfl, hgiven⟩ := hfault f rfl
      exact ⟨e', hrun, hmoves, hgiven⟩

end Engine

end EspWifi
