import EspWifi.Proofs.Link.Ledger
import EspWifi.Proofs.Link.Relative

/-!
# What a program sends

What goes out over the link depends on the state in many ways, but with most programs the result says
how much of it went out. So a program is described by the bytes that it may send with each of its
results, for any ledger of any device.

* `Ledger.Sent`: between two states exactly these bytes were sent.
* `Run.Sends`, `Attempt.Sends`: **what a program sends with each of its results**.
* `Run.Quiet`: programs that send nothing.
-/

namespace EspWifi

open Run

variable {σ τ υ α β : Type} [Device σ] [OnDevice τ σ] [OnDevice υ σ] {L : Ledger σ}

/-- **Between two states exactly the bytes `w` were sent**, whatever was read. -/
def Ledger.Sent (L : Ledger σ) (t t' : τ) (w : Bytes) : Prop :=
  ∃ c, L.moves (OnDevice.device t) (OnDevice.device t') c w

namespace Ledger.Sent

variable {t t' t'' : τ} {w w' : Bytes}

theorem refl (t : τ) : L.Sent t t [] := ⟨[], L.refl _⟩

theorem trans (h : L.Sent t t' w) (h' : L.Sent t' t'' w') : L.Sent t t'' (w ++ w') := by
  obtain ⟨c, hc⟩ := h
  obtain ⟨c', hc'⟩ := h'
  exact ⟨c ++ c', L.trans hc hc'⟩

end Ledger.Sent

/-- **With each result `a` the program sends bytes `w` that satisfy `P a w`**, if it returns. -/
def Run.Sends (L : Ledger σ) (m : Run τ α) (P : α → Bytes → Prop) : Prop :=
  ∀ t, wp True m (fun a t' => ∃ w, L.Sent t t' w ∧ P a w) t

/-- A program that sends nothing. -/
def Run.Quiet (L : Ledger σ) (m : Run τ α) : Prop := Sends L m fun _ w => w = []

/-- A program that may fail sends bytes `w` with its result `r` that satisfy `P r w`. -/
def Attempt.Sends (L : Ledger σ) (x : Attempt τ α) (P : Except Fault α → Bytes → Prop) : Prop :=
  Run.Sends L x.run P

namespace Run.Sends

variable {m : Run τ α} {P P' : α → Bytes → Prop} {Q : β → Bytes → Prop}

theorem mono (h : Sends L m P) (hP : ∀ a w, P a w → P' a w) : Sends L m P' := by
  intro t
  refine wp_mono (h t) ?_
  rintro a t' ⟨w, hw, hp⟩
  exact ⟨w, hw, hP a w hp⟩

theorem pure {a : α} (h : P a []) : Sends L (pure a : Run τ α) P := fun t => ⟨[], .refl t, h⟩

/-- **What is sent in two steps** is what the first one sends and then what the second one sends. -/
theorem bind {f : α → Run τ β} (h : Sends L m P)
    (hf : ∀ a w, P a w → Sends L (f a) fun b w' => Q b (w ++ w')) : Sends L (m >>= f) Q := by
  intro t
  rw [wp_bind]
  refine wp_mono (h t) ?_
  rintro a t' ⟨w, hw, hp⟩
  refine wp_mono (hf a w hp t') ?_
  rintro b t'' ⟨w', hw', hq⟩
  exact ⟨w ++ w', hw.trans hw', hq⟩

theorem get_bind {f : τ → Run τ α} (h : ∀ t, Sends L (f t) P) : Sends L (get >>= f) P := by
  intro t
  rw [wp_bind, wp_get]
  exact h t t

/-- What a program on a part sends, it sends on the whole. -/
theorem focus {get : υ → τ} {put : τ → υ → υ} (part : DevicePart get put) (h : Sends L m P) :
    Sends L (Run.focus get put m) P := by
  intro u
  rw [wp_focus]
  refine wp_mono (h (get u)) ?_
  rintro a t ⟨w, ⟨c, hc⟩, hp⟩
  rw [part.device_get] at hc
  exact ⟨w, ⟨c, by rwa [part.device_put]⟩, hp⟩

end Run.Sends

namespace Run.Quiet

variable {m : Run τ α} {Q : β → Bytes → Prop}

theorem pure (a : α) : Quiet L (pure a : Run τ α) := Sends.pure rfl

/-- After a program that sends nothing comes all that is sent. -/
theorem before {f : α → Run τ β} (h : Quiet L m) (hf : ∀ a, Sends L (f a) Q) :
    Sends L (m >>= f) Q := by
  refine Sends.bind h ?_
  rintro a _ rfl
  exact hf a

theorem bind {f : α → Run τ β} (h : Quiet L m) (hf : ∀ a, Quiet L (f a)) : Quiet L (m >>= f) :=
  h.before hf

theorem focus {get : υ → τ} {put : τ → υ → υ} (part : DevicePart get put) (h : Quiet L m) :
    Quiet L (Run.focus get put m) := Sends.focus part h

end Run.Quiet

namespace Attempt.Sends

variable {x : Attempt τ α} {P P' : Except Fault α → Bytes → Prop} {Q : Except Fault β → Bytes → Prop}

theorem mono (h : Sends L x P) (hP : ∀ r w, P r w → P' r w) : Sends L x P' := Run.Sends.mono h hP

theorem pure {a : α} (h : P (.ok a) []) : Sends L (pure a : Attempt τ α) P := Run.Sends.pure h

theorem throw {f : Fault} (h : P (.error f) []) : Sends L (throw f : Attempt τ α) P :=
  Run.Sends.pure h

/-- A failed step ends the program with what it has sent. -/
theorem bind {f : α → Attempt τ β} (h : Sends L x P)
    (ok : ∀ a w, P (.ok a) w → Sends L (f a) fun r w' => Q r (w ++ w'))
    (error : ∀ e w, P (.error e) w → Q (.error e) w) : Sends L (x >>= f) Q := by
  unfold Sends
  rw [ExceptT.run_bind]
  refine Run.Sends.bind h fun r w hw => ?_
  cases r with
  | ok a => exact ok a w hw
  | error e => exact Run.Sends.pure (by rw [List.append_nil]; exact error e w hw)

/-- After a program that sends nothing and cannot fail comes all that is sent. -/
theorem after {m : Run τ α} {f : α → Attempt τ β} (h : m.Quiet L) (hf : ∀ a, Sends L (f a) Q) :
    Sends L (EspWifi.lift m >>= f) Q := by
  unfold Sends EspWifi.lift
  rw [ExceptT.run_bind_lift]
  exact h.before hf

/-- A program that sends nothing and cannot fail. -/
theorem lift {m : Run τ α} (h : m.Quiet L) (hP : ∀ a, P (.ok a) []) :
    Sends L (EspWifi.lift m) P := by
  unfold Sends EspWifi.lift
  rw [ExceptT.run_lift, map_eq_pure_bind]
  exact h.before fun a => .pure (hP a)

theorem focus {get : υ → τ} {put : τ → υ → υ} (part : DevicePart get put) (h : Sends L x P) :
    Sends L (Attempt.focus get put x) P := Run.Sends.focus part h

end Attempt.Sends

end EspWifi
