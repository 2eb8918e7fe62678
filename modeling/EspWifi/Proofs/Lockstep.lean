import EspWifi.Proofs.Outcome

/-!
# Two runs in lockstep

What is asked of two runs together: either both return, with values and states that stand in some
relation, or both are cut short for the same reason.

* `Run.both`: the relation between two runs, computed backwards like `Run.wp`.
* `Run.Lockstep`: two programs that return the same value and take related states to related states;
  it is closed under everything that programs are made of.
* `Run.Blind`: a program that is in lockstep with itself. It cannot tell related states apart.
* `Attempt.Lockstep`, `Attempt.Blind`: the same for programs that may fail.
-/

namespace EspWifi

variable {σ τ α β γ δ : Type}

namespace Run

/-- **Both runs return, with values and states that satisfy `Q`**, or both are cut short for the same
reason. -/
def both (m : Run σ α) (m' : Run τ β) (Q : α → σ → β → τ → Prop) (s : σ) (t : τ) : Prop :=
  match m s, m' t with
  | .ok a s', .ok b t' => Q a s' b t'
  | .error h _, .error h' _ => h = h'
  | _, _ => False

variable {m : Run σ α} {m' : Run τ β} {Q Q' : α → σ → β → τ → Prop} {s : σ} {t : τ}

theorem both_of_ok {a : α} {s' : σ} (h : both m m' Q s t) (hm : m s = .ok a s') :
    ∃ b t', m' t = .ok b t' ∧ Q a s' b t' := by
  unfold both at h
  rw [hm] at h
  cases hm' : m' t with
  | ok b t' =>
    rw [hm'] at h
    exact ⟨b, t', rfl, h⟩
  | error f t' =>
    rw [hm'] at h
    exact h.elim

theorem both_of_error {f : Halt} {s' : σ} (h : both m m' Q s t) (hm : m s = .error f s') :
    ∃ t', m' t = .error f t' := by
  unfold both at h
  rw [hm] at h
  cases hm' : m' t with
  | ok b t' =>
    rw [hm'] at h
    exact h.elim
  | error f' t' =>
    rw [hm'] at h
    exact ⟨t', by rw [show f = f' from h]⟩

theorem both_mono (h : both m m' Q s t) (hQ : ∀ a s' b t', Q a s' b t' → Q' a s' b t') :
    both m m' Q' s t := by
  unfold both at h ⊢
  cases hm : m s <;> cases hm' : m' t <;> rw [hm, hm'] at h
  · exact hQ _ _ _ _ h
  · exact h
  · exact h
  · exact h

/-- Two runs that return. -/
theorem both_of_wp {P : α → σ → Prop} {P' : β → τ → Prop} (h : wp False m P s)
    (h' : wp False m' P' t) (hQ : ∀ a s' b t', P a s' → P' b t' → Q a s' b t') :
    both m m' Q s t := by
  obtain ⟨a, s', hm, ha⟩ := wp_false_iff.1 h
  obtain ⟨b, t', hm', hb⟩ := wp_false_iff.1 h'
  unfold both
  rw [hm, hm']
  exact hQ a s' b t' ha hb

theorem both_pure {a : α} {b : β} (h : Q a s b t) : both (pure a) (pure b) Q s t := h

/-- **One step after the other, in both runs.** -/
theorem both_bind {x : Run σ γ} {x' : Run τ δ} {f : γ → Run σ α} {f' : δ → Run τ β}
    (h : both x x' (fun c s' d t' => both (f c) (f' d) Q s' t') s t) :
    both (x >>= f) (x' >>= f') Q s t := by
  unfold both at h
  unfold both
  simp only [bind, EStateM.bind]
  cases hx : x s <;> cases hx' : x' t <;> rw [hx, hx'] at h
  · exact h
  · exact h.elim
  · exact h.elim
  · exact h

/-- A step of the first run, which returns. -/
theorem both_left {x : Run σ γ} {f : γ → Run σ α}
    (h : wp False x (fun c s' => both (f c) m' Q s' t) s) : both (x >>= f) m' Q s t := by
  obtain ⟨c, s', hx, hQ⟩ := wp_false_iff.1 h
  unfold both at hQ ⊢
  simp only [bind, EStateM.bind, hx]
  exact hQ

/-- A step of the second run, which returns. -/
theorem both_right {x : Run τ δ} {f : δ → Run τ β}
    (h : wp False x (fun d t' => both m (f d) Q s t') t) : both m (x >>= f) Q s t := by
  obtain ⟨d, t', hx, hQ⟩ := wp_false_iff.1 h
  unfold both at hQ ⊢
  simp only [bind, EStateM.bind, hx]
  exact hQ

theorem both_focus {σ' τ' : Type} {get : σ' → σ} {put : σ → σ' → σ'} {get' : τ' → τ}
    {put' : τ → τ' → τ'} {Q : α → σ' → β → τ' → Prop} {s : σ'} {t : τ'}
    (h : both m m' (fun a u b v => Q a (put u s) b (put' v t)) (get s) (get' t)) :
    both (focus get put m) (focus get' put' m') Q s t := by
  unfold both at h ⊢
  unfold focus
  cases hm : m (get s) <;> cases hm' : m' (get' t) <;> rw [hm, hm'] at h <;> exact h

/-- Two rounds that decide alike: both go on, or both end. -/
def bothRounds (again : α → σ → α → τ → Prop) (done : β → σ → β → τ → Prop) :
    Round α β → σ → Round α β → τ → Prop
  | .again a, s, .again a', t => again a s a' t
  | .finish b, s, .finish b', t => done b s b' t
  | _, _, _, _ => False

/-- **Two loops with the same bound**, with an invariant on their values and states. -/
theorem both_loop {I : α → σ → α → τ → Prop} {D : β → σ → β → τ → Prop}
    {body : α → Run σ (Round α β)} {body' : α → Run τ (Round α β)}
    (round : ∀ a s a' t, I a s a' t → both (body a) (body' a') (bothRounds I D) s t) :
    ∀ n a s a' t, I a s a' t → both (loop n body a) (loop n body' a') D s t := by
  intro n
  induction n with
  | zero =>
    intro a s a' t _
    exact (rfl : Halt.stalled = Halt.stalled)
  | succ n ih =>
    intro a s a' t hI
    have h := round a s a' t hI
    unfold both at h
    unfold both loop
    cases hm : body a s <;> cases hm' : body' a' t <;> rw [hm, hm'] at h
    · rename_i r s' r' t'
      cases r <;> cases r'
      · exact ih _ _ _ _ h
      · exact h.elim
      · exact h.elim
      · exact h
    · exact h.elim
    · exact h.elim
    · exact h

/-! ### Programs in lockstep -/

/-- **From states related by `R` the programs `m` and `m'` return the same value and leave states
related by `R'`**, or both are cut short for the same reason. -/
def Lockstep (R R' : σ → τ → Prop) (m : Run σ α) (m' : Run τ α) : Prop :=
  ∀ s t, R s t → both m m' (fun a s' b t' => a = b ∧ R' s' t') s t

/-- A program that cannot tell states apart that are related by `R`. -/
abbrev Blind (R : σ → σ → Prop) (m : Run σ α) : Prop := Lockstep R R m m

namespace Lockstep

variable {R R' R'' : σ → τ → Prop} {m : Run σ α} {m' : Run τ α}

theorem weaken {P P' : σ → τ → Prop} (h : Lockstep R R' m m') (hP : ∀ s t, P s t → R s t)
    (hP' : ∀ s t, R' s t → P' s t) : Lockstep P P' m m' :=
  fun s t hst => both_mono (h s t (hP s t hst)) fun _ _ _ _ hQ => ⟨hQ.1, hP' _ _ hQ.2⟩

theorem pure (a : α) : Lockstep R R (pure a) (pure a) := fun _ _ h => ⟨rfl, h⟩

theorem bind {f : α → Run σ β} {f' : α → Run τ β} (h : Lockstep R R' m m')
    (hf : ∀ a, Lockstep R' R'' (f a) (f' a)) : Lockstep R R'' (m >>= f) (m' >>= f') := by
  intro s t hst
  refine both_bind (both_mono (h s t hst) ?_)
  rintro a s' _ t' ⟨rfl, hst'⟩
  exact hf a s' t' hst'

theorem ite {c : Prop} [Decidable c] {n : Run σ α} {n' : Run τ α} (h : Lockstep R R' m m')
    (h' : Lockstep R R' n n') : Lockstep R R' (if c then m else n) (if c then m' else n') := by
  split
  · exact h
  · exact h'

/-- What a program does first with its state it does alike in states that it cannot tell apart. -/
theorem get_bind {f : σ → Run σ α} {f' : τ → Run τ α}
    (h : ∀ s t, R s t → Lockstep R R' (f s) (f' t)) : Lockstep R R' (get >>= f) (get >>= f') :=
  fun s t hst => both_bind (h s t hst s t hst)

theorem modify {f : σ → σ} {f' : τ → τ} (h : ∀ s t, R s t → R' (f s) (f' t)) :
    Lockstep R R' (modify f) (modify f') := fun s t hst => ⟨rfl, h s t hst⟩

theorem modifyGet {f : σ → α × σ} {f' : τ → α × τ}
    (h : ∀ s t, R s t → (f s).1 = (f' t).1 ∧ R' (f s).2 (f' t).2) :
    Lockstep R R' (modifyGet f) (modifyGet f') := h

/-- **A loop keeps what each of its rounds keeps.** -/
theorem loop {body : α → Run σ (Round α β)} {body' : α → Run τ (Round α β)}
    (h : ∀ a, Lockstep R R (body a) (body' a)) (n : Nat) (a : α) :
    Lockstep R R (loop n body a) (loop n body' a) := by
  intro s t hst
  refine both_loop (I := fun a s a' t => a = a' ∧ R s t) ?_ n a s a t ⟨rfl, hst⟩
  rintro a s _ t ⟨rfl, hst⟩
  refine both_mono (h a s t hst) ?_
  rintro r s' _ t' ⟨rfl, hst'⟩
  cases r <;> exact ⟨rfl, hst'⟩

end Lockstep

end Run

namespace Attempt

open Run

/-- `Run.Lockstep` for programs that may fail: both end with the same value or the same fault. -/
def Lockstep (R R' : σ → τ → Prop) (x : Attempt σ α) (x' : Attempt τ α) : Prop :=
  Run.Lockstep R R' x.run x'.run

/-- A program that may fail and cannot tell states apart that are related by `R`. -/
abbrev Blind (R : σ → σ → Prop) (x : Attempt σ α) : Prop := Lockstep R R x x

namespace Lockstep

variable {R R' R'' : σ → τ → Prop} {x : Attempt σ α} {x' : Attempt τ α}

theorem pure (a : α) : Lockstep R R (pure a) (pure a) := Run.Lockstep.pure _

theorem throw (f : Fault) : Lockstep R R (throw f : Attempt σ α) (throw f : Attempt τ α) :=
  Run.Lockstep.pure _

theorem liftResult (r : Except Fault α) :
    Lockstep R R (EspWifi.liftResult r) (EspWifi.liftResult r) := Run.Lockstep.pure _

/-- One step after the other. A fault ends the programs where they are, so the states after the first
step have to be related as those at the end. -/
theorem bind_of {f : α → Attempt σ β} {f' : α → Attempt τ β} (h : Lockstep R R' x x')
    (hf : ∀ a, Lockstep R' R'' (f a) (f' a)) (hR : ∀ s t, R' s t → R'' s t) :
    Lockstep R R'' (x >>= f) (x' >>= f') := by
  unfold Lockstep
  rw [ExceptT.run_bind, ExceptT.run_bind]
  refine Run.Lockstep.bind h fun r => ?_
  cases r with
  | ok a => exact hf a
  | error e => exact (Run.Lockstep.pure _).weaken (fun _ _ h => h) hR

/-- Less is asked of related states before. -/
theorem from_weaker {P : σ → τ → Prop} (h : Lockstep R R' x x') (hP : ∀ s t, P s t → R s t) :
    Lockstep P R' x x' := Run.Lockstep.weaken h hP fun _ _ h => h

theorem bind {f : α → Attempt σ β} {f' : α → Attempt τ β} (h : Lockstep R R' x x')
    (hf : ∀ a, Lockstep R' R' (f a) (f' a)) : Lockstep R R' (x >>= f) (x' >>= f') :=
  h.bind_of hf fun _ _ h => h

theorem ite {c : Prop} [Decidable c] {y : Attempt σ α} {y' : Attempt τ α} (h : Lockstep R R' x x')
    (h' : Lockstep R R' y y') : Lockstep R R' (if c then x else y) (if c then x' else y') := by
  split
  · exact h
  · exact h'

theorem get_bind {f : σ → Attempt σ α} {f' : τ → Attempt τ α}
    (h : ∀ s t, R s t → Lockstep R R' (f s) (f' t)) : Lockstep R R' (get >>= f) (get >>= f') :=
  fun s t hst => h s t hst s t hst

theorem lift {m : Run σ α} {m' : Run τ α} (h : Run.Lockstep R R' m m') :
    Lockstep R R' (EspWifi.lift m) (EspWifi.lift m') := by
  unfold Lockstep EspWifi.lift
  rw [ExceptT.run_lift, ExceptT.run_lift]
  exact h.bind fun a => Run.Lockstep.pure _

theorem mk {m : Run σ (Except Fault α)} {m' : Run τ (Except Fault α)}
    (h : Run.Lockstep R R' m m') : Lockstep R R' (ExceptT.mk m) (ExceptT.mk m') := h

end Lockstep

end Attempt

end EspWifi
