import EspWifi.Proofs.Outcome

/-!
# Programs that return

A program is total where it returns from every state that satisfies an invariant. If it keeps the invariant
as well, what comes after it may rely on that again.

* `Run.Returns`: a program returns wherever an invariant holds, and keeps it.
* `Run.Returns.bind`, `Run.Returns.attempt`: one step after the other.
* `Run.Returns.focus`: a program on a part.
-/

namespace EspWifi

variable {σ τ α β : Type} {P : σ → Prop}

namespace Run

/-- **The program returns from every state in which `P` holds**, and `P` holds then, too. -/
def Returns (P : σ → Prop) (m : Run σ α) : Prop := ∀ s, P s → wp False m (fun _ => P) s

namespace Returns

theorem pure (a : α) : Returns P (pure a : Run σ α) := fun _ h => h

theorem bind {m : Run σ α} {f : α → Run σ β} (hm : Returns P m) (hf : ∀ a, Returns P (f a)) :
    Returns P (m >>= f) := by
  intro s h
  rw [wp_bind]
  exact wp_mono (hm s h) fun a s' h' => hf a s' h'

/-- What a program does may depend on the state. -/
theorem get_bind {f : σ → Run σ α} (hf : ∀ s, P s → Returns P (f s)) : Returns P (get >>= f) := by
  intro s h
  rw [wp_bind, wp_get]
  exact hf s h s h

theorem modify {f : σ → σ} (hf : ∀ s, P s → P (f s)) : Returns P (modify f : Run σ Unit) :=
  fun s h => hf s h

/-- What a program on a part does, it does on the whole. -/
theorem focus {Q : τ → Prop} {get : τ → σ} {put : σ → τ → τ} {m : Run σ α} (hm : Returns P m)
    (hget : ∀ t, Q t → P (get t)) (hput : ∀ s t, Q t → P s → Q (put s t)) :
    Returns Q (Run.focus get put m) := by
  intro t h
  rw [wp_focus]
  exact wp_mono (hm _ (hget t h)) fun _ s hs => hput s t h hs

/-- A failed step ends the program. -/
theorem attempt {x : Attempt σ α} {f : α → Attempt σ β} (hx : Returns P x.run)
    (hf : ∀ a, Returns P (f a).run) : Returns P (x >>= f).run := by
  intro s h
  rw [Attempt.wp_run, Attempt.wp_bind]
  refine Attempt.wp_mono (Attempt.wp_run.1 (hx s h)) (fun a s' h' => ?_) fun _ _ h' => h'
  exact Attempt.wp_run.1 (hf a s' h')

/-- A step that cannot fail comes before the rest. -/
theorem after {m : Run σ α} {f : α → Attempt σ β} (hm : Returns P m) (hf : ∀ a, Returns P (f a).run) :
    Returns P (lift m >>= f).run := by
  unfold lift
  rw [ExceptT.run_bind_lift]
  exact bind hm hf

/-- So may what an attempt does. -/
theorem attempt_get {f : σ → Attempt σ α} (hf : ∀ s, P s → Returns P (f s).run) :
    Returns P (get >>= f : Attempt σ α).run := by
  intro s h
  rw [Attempt.wp_run, Attempt.wp_bind, Attempt.wp_get]
  exact Attempt.wp_run.1 (hf s h s h)

/-- What comes after a missing value is not run. -/
theorem option {x : OptionT (Run σ) α} {f : α → OptionT (Run σ) β} (hx : Returns P x.run)
    (hf : ∀ a, Returns P (f a).run) : Returns P (x >>= f).run := by
  intro s h
  rw [wp_run_bind]
  refine wp_mono (hx s h) fun r s' h' => ?_
  cases r with
  | none => exact h'
  | some a => exact hf a s' h'

/-- **A program that returns has a result.** -/
theorem exists_run {m : Run σ α} (hm : Returns P m) {s : σ} (h : P s) : ∃ a s', m s = .ok a s' ∧ P s' :=
  wp_false_iff.1 (hm s h)

end Returns

end Run

end EspWifi
