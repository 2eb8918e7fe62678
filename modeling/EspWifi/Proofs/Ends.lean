import EspWifi.Proofs.Outcome
import Mathlib.Order.Defs.Unbundled

/-!
# Both ends of a run

A run that is cut short leaves a state behind as well. Here something is asked of that state too: of one
fixed predicate for wherever the run may be cut, and of another one for where it returns.

* `Run.ends`, `Attempt.ends`: what holds at either end, computed backwards like `Run.wp`.
* `Run.ends_loop`: the rule for loops. Rounds need not be counted, as a loop that runs out of them is cut
  in a state that may be cut.
* `Run.Keeps`: **programs that stand in a relation to their beginning wherever they end**, for relations
  that are reflexive and transitive.
-/

namespace EspWifi

variable {σ τ α β : Type}

namespace Run

/-- **A run of `m` from `s` returns a value and a state that satisfy `Q`**, or it is cut short in a state
that satisfies `E`. -/
def ends (E : σ → Prop) (m : Run σ α) (Q : α → σ → Prop) (s : σ) : Prop :=
  match m s with
  | .ok a s' => Q a s'
  | .error _ s' => E s'

variable {E E' : σ → Prop} {Q Q' : α → σ → Prop} {s : σ} {m : Run σ α}

theorem ends_mono (h : ends E m Q s) (hE : ∀ s', E s' → E' s') (hQ : ∀ a s', Q a s' → Q' a s') :
    ends E' m Q' s := by
  unfold ends at h ⊢
  cases hm : m s with
  | ok a s' => rw [hm] at h; exact hQ a s' h
  | error f s' => rw [hm] at h; exact hE s' h

/-- What is known of a run that returns may be used where it returns. -/
theorem ends_of_wp (h : ends E m Q s) (hwp : wp True m Q' s) :
    ends E m (fun a s' => Q a s' ∧ Q' a s') s := by
  unfold ends at h ⊢
  unfold wp at hwp
  cases hm : m s with
  | ok a s' => rw [hm] at h hwp; exact ⟨h, hwp⟩
  | error f s' => rw [hm] at h; exact h

theorem of_ends_error {f : Halt} {s' : σ} (h : ends E m Q s) (hm : m s = .error f s') : E s' := by
  unfold ends at h
  rwa [hm] at h

@[simp] theorem ends_pure {a : α} : ends E (pure a : Run σ α) Q s ↔ Q a s := Iff.rfl

/-- **One step after the other.** -/
@[simp] theorem ends_bind {x : Run σ β} {f : β → Run σ α} :
    ends E (x >>= f) Q s ↔ ends E x (fun b s' => ends E (f b) Q s') s := by
  simp only [ends, bind, EStateM.bind]
  cases x s <;> rfl

/-- What follows a program need only be looked at where that returns. -/
theorem ends_then {x : Run σ β} {f : β → Run σ α} {R : β → σ → Prop} (h : ends E x R s)
    (hf : ∀ b s', R b s' → ends E (f b) Q s') : ends E (x >>= f) Q s :=
  ends_bind.2 (ends_mono h (fun _ hE => hE) hf)

@[simp] theorem ends_get {Q : σ → σ → Prop} : ends E (get : Run σ σ) Q s ↔ Q s s := Iff.rfl

@[simp] theorem ends_modify {f : σ → σ} {Q : Unit → σ → Prop} :
    ends E (modify f : Run σ Unit) Q s ↔ Q () (f s) := Iff.rfl

theorem ends_focus {get : τ → σ} {put : σ → τ → τ} {E : τ → Prop} {Q : α → τ → Prop} {t : τ} :
    ends E (focus get put m) Q t ↔
      ends (fun s => E (put s t)) m (fun a s => Q a (put s t)) (get t) := by
  simp only [ends, focus]
  cases m (get t) <;> rfl

/-- **The rule for loops**: `I` holds before each round. -/
theorem ends_loop {I : α → σ → Prop} {body : α → Run σ (Round α β)} {D : β → σ → Prop}
    (stop : ∀ a s, I a s → E s) (round : ∀ a s, I a s → ends E (body a) (afterRound I D) s) :
    ∀ n a s, I a s → ends E (loop n body a) D s := by
  intro n
  induction n with
  | zero => intro a s h; exact stop a s h
  | succ n ih =>
    intro a s h
    have hround := round a s h
    unfold ends at hround ⊢
    unfold loop
    cases hm : body a s with
    | error f s' => rw [hm] at hround; exact hround
    | ok r s' =>
      rw [hm] at hround
      cases r with
      | again a' => exact ih a' s' hround
      | finish b => exact hround

/-- A loop without an exit is cut short. -/
theorem ends_forever {I : α → σ → Prop} {body : α → Run σ α} {Q : Empty → σ → Prop}
    (stop : ∀ a s, I a s → E s) (round : ∀ a s, I a s → ends E (body a) I s) {n : Nat} {a : α}
    (h : I a s) : ends E (forever n body a) Q s := by
  refine ends_loop stop (fun a s h => ?_) n a s h
  rw [ends_bind]
  exact round a s h

end Run

namespace Attempt

open Run

/-- **A run of `x` from `s` ends with a value and a state that satisfy `Q`, or with a fault and a state
that satisfy `F`**, or it is cut short in a state that satisfies `E`. -/
def ends (E : σ → Prop) (x : Attempt σ α) (Q : α → σ → Prop) (F : Fault → σ → Prop) (s : σ) : Prop :=
  Run.ends E x.run (outcome Q F) s

variable {E : σ → Prop} {Q Q' : α → σ → Prop} {F F' : Fault → σ → Prop} {s : σ} {x : Attempt σ α}

theorem ends_mono (h : ends E x Q F s) (hQ : ∀ a s', Q a s' → Q' a s')
    (hF : ∀ f s', F f s' → F' f s') : ends E x Q' F' s := by
  refine Run.ends_mono h (fun _ hE => hE) fun r s' hr => ?_
  cases r with
  | ok a => exact hQ a s' hr
  | error f => exact hF f s' hr

/-- A fault as a value. -/
@[simp] theorem ends_run {R : Except Fault α → σ → Prop} :
    Run.ends E x.run R s ↔ ends E x (fun a => R (.ok a)) (fun f => R (.error f)) s := by
  have hR : outcome (fun a => R (.ok a)) (fun f => R (.error f)) = R := by
    funext r
    cases r <;> rfl
  rw [ends, hR]

@[simp] theorem ends_pure {a : α} : ends E (pure a : Attempt σ α) Q F s ↔ Q a s := Iff.rfl

@[simp] theorem ends_throw {f : Fault} : ends E (throw f : Attempt σ α) Q F s ↔ F f s := Iff.rfl

@[simp] theorem ends_bind {x : Attempt σ β} {f : β → Attempt σ α} :
    ends E (x >>= f) Q F s ↔ ends E x (fun b s' => ends E (f b) Q F s') F s := by
  unfold ends
  rw [ExceptT.run_bind, Run.ends_bind]
  unfold Run.ends
  cases x.run s with
  | error h s' => rfl
  | ok r s' => cases r <;> rfl

@[simp] theorem ends_lift {m : Run σ α} : ends E (lift m) Q F s ↔ Run.ends E m Q s := by
  simp only [ends, Run.ends, lift, ExceptT.run_lift, Functor.map, EStateM.map]
  cases m s <;> rfl

theorem ends_lift_then {m : Run σ β} {f : β → Attempt σ α} {R : β → σ → Prop}
    (h : Run.ends E m R s) (hf : ∀ b s', R b s' → ends E (f b) Q F s') :
    ends E (lift m >>= f) Q F s :=
  ends_bind.2 (ends_lift.2 (Run.ends_mono h (fun _ hE => hE) hf))

@[simp] theorem ends_liftResult {r : Except Fault α} :
    ends E (liftResult r) Q F s ↔ outcome Q F r s := Iff.rfl

@[simp] theorem ends_mk {m : Run σ (Except Fault α)} :
    ends E (ExceptT.mk m) Q F s ↔ Run.ends E m (outcome Q F) s := Iff.rfl

@[simp] theorem ends_get {Q : σ → σ → Prop} : ends E (get : Attempt σ σ) Q F s ↔ Q s s := Iff.rfl

theorem ends_focus {get : τ → σ} {put : σ → τ → τ} {E : τ → Prop} {Q : α → τ → Prop}
    {F : Fault → τ → Prop} {t : τ} :
    ends E (focus get put x) Q F t ↔
      ends (fun s => E (put s t)) x (fun a s => Q a (put s t)) (fun f s => F f (put s t)) (get t) := by
  simp only [ends, Run.ends, focus, Run.focus, ExceptT.run_mk]
  cases x.run (get t) with
  | error h s' => rfl
  | ok r s' => cases r <;> rfl

/-- A fault with which no run ends need not be looked at. -/
theorem ends_of_ne (h : ends E x Q F s) (hne : ∀ f s', F f s' → x.run s ≠ .ok (.error f) s') :
    ends E x Q F' s := by
  unfold ends Run.ends at h ⊢
  cases hx : x.run s with
  | error f s' => rw [hx] at h; exact h
  | ok r s' =>
    rw [hx] at h
    cases r with
    | ok a => exact h
    | error f => exact absurd hx (hne f s' h)

end Attempt

/-! ### Relations to the beginning -/

/-- **Wherever a run of the program ends, its end stands in the relation `R` to its beginning.** -/
def Run.Keeps (R : σ → σ → Prop) (m : Run σ α) : Prop := ∀ s, ends (R s) m (fun _ => R s) s

/-- A program that may fail and stands in a relation to its beginning wherever it ends. -/
def Attempt.Keeps (R : σ → σ → Prop) (x : Attempt σ α) : Prop := Run.Keeps R x.run

namespace Run.Keeps

variable {R : σ → σ → Prop} {m : Run σ α}

/-- Of a program that keeps a relation nothing need be looked at but its value. -/
theorem ends {E : σ → Prop} {Q : α → σ → Prop} {s : σ} (h : Keeps R m) (hE : ∀ s', R s s' → E s')
    (hQ : ∀ a s', R s s' → Q a s') : ends E m Q s :=
  ends_mono (h s) hE hQ

variable [IsPreorder σ R]

theorem pure (a : α) : Keeps R (pure a : Run σ α) := fun s => refl_of R s

theorem get : Keeps R (get : Run σ σ) := fun s => refl_of R s

theorem bind {f : α → Run σ β} (h : Keeps R m) (hf : ∀ a, Keeps R (f a)) : Keeps R (m >>= f) := by
  intro s
  rw [ends_bind]
  refine ends_mono (h s) (fun _ hs => hs) fun a s' hs => ?_
  exact (hf a).ends (fun _ => trans_of R hs) fun _ _ => trans_of R hs

omit [IsPreorder σ R] in
theorem ite {c : Prop} [Decidable c] {m' : Run σ α} (h : Keeps R m) (h' : Keeps R m') :
    Keeps R (if c then m else m') := by
  split
  · exact h
  · exact h'

/-- **A loop keeps what each of its rounds keeps.** -/
theorem loop {body : α → Run σ (Round α β)} (h : ∀ a, Keeps R (body a)) (n : Nat) (a : α) :
    Keeps R (loop n body a) := by
  intro s
  refine ends_loop (I := fun _ => R s) (fun _ _ hs => hs) (fun a s' hs => ?_) n a s (refl_of R s)
  refine (h a).ends (fun _ => trans_of R hs) fun r _ hr => ?_
  cases r <;> exact trans_of R hs hr

omit [IsPreorder σ R] in
theorem modify {f : σ → σ} (h : ∀ s, R s (f s)) : Keeps R (modify f : Run σ Unit) := h

omit [IsPreorder σ R] in
theorem focus {P : τ → τ → Prop} {get : τ → σ} {put : σ → τ → τ} (h : Keeps R m)
    (hP : ∀ s t, R (get t) s → P t (put s t)) : Keeps P (focus get put m) := by
  intro t
  rw [ends_focus]
  exact h.ends (fun s => hP s t) fun _ s => hP s t

/-! ### Programs whose value may be missing -/

theorem optionPure (a : α) : Keeps R (Pure.pure a : OptionT (Run σ) α).run := .pure _

theorem failure : Keeps R (failure : OptionT (Run σ) α).run := .pure _

theorem optionBind {x : OptionT (Run σ) α} {f : α → OptionT (Run σ) β} (h : Keeps R x.run)
    (hf : ∀ a, Keeps R (f a).run) : Keeps R (x >>= f).run := by
  rw [OptionT.run_bind, Option.elimM]
  refine .bind h fun r => ?_
  cases r with
  | none => exact .pure _
  | some a => exact hf a

end Run.Keeps

namespace Attempt.Keeps

variable {R : σ → σ → Prop} [IsPreorder σ R] {x : Attempt σ α}

theorem pure (a : α) : Keeps R (pure a : Attempt σ α) := Run.Keeps.pure _

theorem throw (f : Fault) : Keeps R (throw f : Attempt σ α) := Run.Keeps.pure _

theorem liftResult (r : Except Fault α) : Keeps R (EspWifi.liftResult r : Attempt σ α) :=
  Run.Keeps.pure _

theorem bind {f : α → Attempt σ β} (h : Keeps R x) (hf : ∀ a, Keeps R (f a)) :
    Keeps R (x >>= f) := by
  unfold Keeps
  rw [ExceptT.run_bind]
  refine Run.Keeps.bind h fun r => ?_
  cases r with
  | ok a => exact hf a
  | error f => exact .pure _

theorem lift {m : Run σ α} (h : m.Keeps R) : Keeps R (EspWifi.lift m) := by
  unfold Keeps EspWifi.lift
  rw [ExceptT.run_lift, map_eq_pure_bind]
  exact h.bind fun _ => .pure _

omit [IsPreorder σ R] in
theorem ite {c : Prop} [Decidable c] {y : Attempt σ α} (h : Keeps R x) (h' : Keeps R y) :
    Keeps R (if c then x else y) := Run.Keeps.ite h h'

omit [IsPreorder σ R] in
theorem focus {P : τ → τ → Prop} {get : τ → σ} {put : σ → τ → τ} (h : Keeps R x)
    (hP : ∀ s t, R (get t) s → P t (put s t)) : Keeps P (Attempt.focus get put x) :=
  Run.Keeps.focus h hP

end Attempt.Keeps

end EspWifi
