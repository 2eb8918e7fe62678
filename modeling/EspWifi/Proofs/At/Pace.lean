import EspWifi.Proofs.At.Patience
import EspWifi.Proofs.At.StaleInput
import EspWifi.Proofs.Returning

/-!
# Commands that return

No program changes the timeouts of the engine or the step of its clock. So whether the clock passes a
timeout is settled once for a whole run, and a command returns if it passes the two that the command waits
for.

* `Engine.AtPace`: the timeouts pass as they do in another state.
* `Bench.returns_delay`, `Engine.returns_drain`: pauses end, and so does a drain.
* `Engine.returns_requestOk`: **a command returns.**
-/

namespace EspWifi

open Run

/-- **A pause ends** if the clock passes it, also on a clock that cannot sleep. -/
theorem Bench.returns_delay {b : Bench} {ms : UInt32} (h : b.Passes ms) :
    wp False (Device.delay ms) (fun _ b' => b'.step = b.step) b := by
  refine wp_of_returns (Bench.pace.delay b ms) ?_
  show wp False (do if (← get).busy then @busyWait Bench sleeper ms else sleeper.delay ms) _ b
  rw [wp_bind, wp_get, wp_ite]
  split
  case isFalse => trivial
  unfold busyWait
  rw [wp_bind]
  refine (After.refl b).millis fun b₁ h₁ => ?_
  rw [← (After.refl b).now]
  -- `k` looks were taken, and none of them before this round showed that the pause is over
  refine wp_loop (I := fun n () b' => ∃ k, ms.toNat + 2 ≤ n + k ∧ b.After b' k ∧
    Unpassed b.shows b.now ms k) ?_ ?_ _ _ _ ⟨1, by omega, h₁, .first⟩
  · rintro ⟨⟩ b' ⟨k, hrounds, -, hunpassed⟩
    have hle := hunpassed.le h.first
    omega
  · rintro n ⟨⟩ b₂ ⟨k, hrounds, h₂, hunpassed⟩
    rw [wp_bind]
    refine h₂.elapsed fun b₃ h₃ => ?_
    rw [wp_ite]
    split
    case isFalse => trivial
    case isTrue hshort => exact ⟨k + 1, by omega, h₃, hunpassed.next (UInt32.not_le.2 hshort)⟩

namespace Engine

variable {e e' e'' : Engine Bench} {timeout : UInt32}

/-- **The timeouts pass in `e'` as they do in `e`.** -/
structure AtPace (e e' : Engine Bench) : Prop where
  timeouts : e'.timeouts = e.timeouts
  step : e'.device.step = e.device.step

namespace AtPace

theorem refl (e : Engine Bench) : e.AtPace e := ⟨rfl, rfl⟩

theorem trans (h : e.AtPace e') (h' : e'.AtPace e'') : e.AtPace e'' :=
  ⟨h'.timeouts.trans h.timeouts, h'.step.trans h.step⟩

theorem passes (h : e.AtPace e') (hpasses : e.device.Passes timeout) : e'.device.Passes timeout :=
  hpasses.of_step h.step

end AtPace

theorem Moves.atPace {c w : Bytes} (h : e.Moves Bench.pace e' c w) : e.AtPace e' :=
  ⟨h.timeouts, h.device⟩

/-- A program whose moves are known, and which returns, returns at its pace. -/
theorem returns_of_moves {α : Type} {m : Run (Engine Bench) α}
    (hm : ∀ e₁, e.AtPace e₁ → wp False m (fun _ e' => ∃ c w, e₁.Moves Bench.pace e' c w) e₁) :
    Returns e.AtPace m := by
  intro e₁ h₁
  refine wp_mono (hm e₁ h₁) ?_
  rintro a e' ⟨c, w, hmoves⟩
  exact h₁.trans hmoves.atPace

theorem returns_delay {ms : UInt32} (h : e.device.Passes ms) :
    Returns e.AtPace (onDevice (Device.delay ms)) := by
  intro e₁ h₁
  rw [wp_onDevice]
  exact wp_mono (Bench.returns_delay (h₁.passes h)) fun _ b hstep => h₁.trans ⟨rfl, hstep⟩

theorem returns_record (level : Level) (message : String) :
    Returns e.AtPace (MonadLog.record level message : Run (Engine Bench) Unit) :=
  fun _ h₁ => wp_record_after (.refl _) fun _ hafter => h₁.trans ⟨rfl, hafter.step⟩

/-- A drain reads what has arrived, and nothing more. -/
theorem returns_drain (warn : Bool) : Returns e.AtPace (drain warn) := by
  intro e₁ h₁
  refine Bench.queuedLink.wp_drain fun _ e' hstale _ => h₁.trans ⟨hstale.timeouts, ?_⟩
  have hstep : e₁.device.outline.step = e'.device.outline.step := congrArg Bench.step hstale.device
  rw [Bench.outline_eq, Bench.outline_eq] at hstep
  exact hstep.symm

theorem returns_transmit_atPace (bytes : Bytes) (h : e.device.Passes e.timeouts.send) :
    Returns e.AtPace (transmit bytes).run := by
  refine returns_of_moves fun e₁ h₁ => ?_
  have hpasses : e₁.device.Passes e₁.timeouts.send := by
    rw [h₁.timeouts]
    exact h₁.passes h
  exact wp_mono (returns_transmit bytes hpasses) fun _ _ ⟨w, hw⟩ => ⟨[], w, hw⟩

theorem returns_awaitTag_atPace {tag : Option Bytes} {known : Bool} (h : e.device.Passes timeout) :
    Returns e.AtPace (awaitTag timeout tag known) :=
  returns_of_moves fun _ h₁ => wp_mono (returns_awaitTag (h₁.passes h)) fun _ _ ⟨c, hc⟩ => ⟨c, [], hc⟩

/-- **A command returns** if the clock passes its timeout and that of the transmitter. -/
theorem returns_requestOk (pieces : List String) (hsend : e.device.Passes e.timeouts.send)
    (h : e.device.Passes timeout) : Returns e.AtPace (requestOk pieces timeout).run := by
  have refused (f : Fault) : Returns e.AtPace (throw f : Attempt (Engine Bench) Unit).run := .pure _
  -- what is made of a tag takes no time
  have answered : Returns e.AtPace (request pieces timeout).run →
      Returns e.AtPace (requestOk pieces timeout).run := by
    intro hrequest
    refine .attempt hrequest fun t => ?_
    cases t with
    | ok => exact .pure _
    | _ => exact refused _
  apply answered
  unfold request
  rw [commandLine_eq]
  by_cases hfits : (String.join pieces).utf8ByteSize ≤ commandLimit
  case neg =>
    rw [if_neg hfits]
    exact .pure _
  rw [if_pos hfits]
  show Returns e.AtPace (do issue (String.join pieces); _ : Attempt (Engine Bench) Tag).run
  have hissue : Returns e.AtPace (issue (String.join pieces) : Attempt (Engine Bench) Unit).run := by
    refine .after (returns_drain true) fun _ => .after (returns_record _ _) fun _ => ?_
    rw [endLine_eq hfits]
    exact returns_transmit_atPace _ hsend
  refine .attempt hissue fun _ => .after (returns_awaitTag_atPace h) fun scan =>
    .after (returns_record _ _) fun _ => ?_
  cases scan with
  | matched t => exact .pure _
  | _ => exact .pure _

end Engine

end EspWifi
