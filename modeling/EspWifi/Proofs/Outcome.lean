import EspWifi.Net.Wifi

/-!
# Outcomes of a run

`Run.wp` says what a program guarantees of the value it returns and of the state it leaves behind. It
is computed backwards through the program: each construct has an equation, and a loop has an
invariant that is indexed by the rounds it has left.

* `Run.wp`, `Attempt.wp`: the guarantee, for programs that cannot fail and for those that may.
* `Run.wp_bind`, `Attempt.wp_bind`: one step after the other.
* `Run.wp_loop`: the rule for loops.
* `Run.value?`, `Run.shown?`: what a run returns, and what can be seen of its end, for runs that can be
  computed.
* `Engine.await`: the wait that reading a byte and looking at one have in common.
* `Engine.drainRound`, `Engine.reportErrors`: the parts of a drain.
-/

namespace EspWifi

variable {σ τ α β : Type} {cut : Prop}

namespace Run

/-- **A run of `m` from `s` returns a value and a state that satisfy `Q`**, or it is cut short and
`cut` holds. With `False` for `cut` the run returns; with `True` nothing is said of a run that does
not. -/
def wp (cut : Prop) (m : Run σ α) (Q : α → σ → Prop) (s : σ) : Prop :=
  match m s with
  | .ok a s' => Q a s'
  | .error _ _ => cut

variable {Q Q' : α → σ → Prop} {s : σ}

theorem wp_iff_of_ok {m : Run σ α} {a : α} {s' : σ} (hm : m s = .ok a s') :
    wp cut m Q s ↔ Q a s' := by
  unfold wp
  rw [hm]

theorem wp_of_ok {m : Run σ α} {a : α} {s' : σ} (h : wp cut m Q s) (hm : m s = .ok a s') :
    Q a s' :=
  (wp_iff_of_ok hm).1 h

/-- A run that may not be cut short returns. -/
theorem wp_false_iff {m : Run σ α} : wp False m Q s ↔ ∃ a s', m s = .ok a s' ∧ Q a s' := by
  unfold wp
  cases h : m s with
  | ok a s' =>
    constructor
    · intro hq
      exact ⟨a, s', rfl, hq⟩
    · rintro ⟨_, _, he, hq⟩
      cases he
      exact hq
  | error f s' => simp

theorem wp_mono {m : Run σ α} (h : wp cut m Q s) (hQ : ∀ a s', Q a s' → Q' a s') :
    wp cut m Q' s := by
  unfold wp at h ⊢
  cases hm : m s with
  | ok a s' => rw [hm] at h; exact hQ a s' h
  | error f s' => rw [hm] at h; exact h

/-- What is guaranteed of a run is guaranteed of its result. -/
theorem wp_and_result {m : Run σ α} (h : wp cut m Q s) :
    wp cut m (fun a s' => Q a s' ∧ m s = .ok a s') s := by
  unfold wp at h ⊢
  cases hm : m s with
  | ok a s' => rw [hm] at h; exact ⟨h, rfl⟩
  | error f s' => rw [hm] at h; exact h

/-- What is guaranteed of a run if it returns goes with what is guaranteed of it. -/
theorem wp_and {m : Run σ α} (h : wp True m Q s) (h' : wp cut m Q' s) :
    wp cut m (fun a s' => Q a s' ∧ Q' a s') s := by
  unfold wp at h h' ⊢
  cases hm : m s with
  | ok a s' =>
    rw [hm] at h h'
    exact ⟨h, h'⟩
  | error f s' =>
    rw [hm] at h'
    exact h'

theorem wp_weaken {cut' : Prop} {m : Run σ α} (h : wp cut m Q s) (hcut : cut → cut') :
    wp cut' m Q s := by
  unfold wp at h ⊢
  cases hm : m s with
  | ok a s' => rw [hm] at h; exact h
  | error f s' => rw [hm] at h; exact hcut h

/-- What is guaranteed of a run if it returns is guaranteed of one that does. -/
theorem wp_of_returns {m : Run σ α} (h : wp True m Q s) (hreturns : wp cut m (fun _ _ => True) s) :
    wp cut m Q s :=
  wp_mono (wp_and h hreturns) fun _ _ hboth => hboth.1

/-- Nothing is known of a program of which nothing is asked. -/
theorem wp_any {m : Run σ α} (h : ∀ a s', Q a s') : wp True m Q s := by
  unfold wp
  cases m s with
  | ok a s' => exact h a s'
  | error f s' => trivial

/-- What a run returns, if it does. -/
def value? (m : Run σ α) (s : σ) : Option α :=
  match m s with
  | .ok a _ => some a
  | .error _ _ => none

theorem value?_eq_some {m : Run σ α} {a : α} : value? m s = some a ↔ ∃ s', m s = .ok a s' := by
  unfold value?
  cases m s <;> simp

theorem eq_of_value? {m : Run σ α} {a b : α} {s' : σ} (hvalue : value? m s = some a) (hrun : m s = .ok b s') :
    b = a :=
  Option.some.inj ((value?_eq_some.2 ⟨s', hrun⟩).symm.trans hvalue)

/-- A step of a run that returns returns. -/
theorem value?_bind_eq_some {x : Run σ β} {f : β → Run σ α} {a : α} :
    value? (x >>= f) s = some a ↔ ∃ b s', x s = .ok b s' ∧ value? (f b) s' = some a := by
  simp only [value?, bind, EStateM.bind]
  cases x s with
  | ok b s' =>
    constructor
    · intro h
      exact ⟨b, s', rfl, h⟩
    · rintro ⟨_, _, hx, h⟩
      cases hx
      exact h
  | error f s' => simp

/-- What `f` shows of the value and the state that a run ends with, if it returns. -/
def shown? (m : Run σ α) (f : α → σ → β) (s : σ) : Option β :=
  match m s with
  | .ok a s' => some (f a s')
  | .error _ _ => none

theorem shown?_eq_some {m : Run σ α} {f : α → σ → β} {b : β} :
    shown? m f s = some b ↔ ∃ a s', m s = .ok a s' ∧ f a s' = b := by
  unfold shown?
  cases m s with
  | ok a s' =>
    rw [Option.some_inj]
    constructor
    · rintro rfl
      exact ⟨a, s', rfl, rfl⟩
    · rintro ⟨_, _, ⟨⟩, h⟩
      exact h
  | error f s' => simp

@[simp] theorem wp_pure {a : α} : wp cut (pure a : Run σ α) Q s ↔ Q a s := Iff.rfl

/-- **One step after the other.** -/
@[simp] theorem wp_bind {x : Run σ β} {f : β → Run σ α} :
    wp cut (x >>= f) Q s ↔ wp cut x (fun b s' => wp cut (f b) Q s') s := by
  simp only [wp, bind, EStateM.bind]
  cases x s <;> rfl

@[simp] theorem wp_get {Q : σ → σ → Prop} : wp cut (get : Run σ σ) Q s ↔ Q s s := Iff.rfl

@[simp] theorem wp_modify {f : σ → σ} {Q : Unit → σ → Prop} :
    wp cut (modify f : Run σ Unit) Q s ↔ Q () (f s) := Iff.rfl

@[simp] theorem wp_modifyGet {f : σ → α × σ} :
    wp cut (modifyGet f : Run σ α) Q s ↔ Q (f s).1 (f s).2 := Iff.rfl

@[simp] theorem wp_focus {get : τ → σ} {put : σ → τ → τ} {m : Run σ α} {Q : α → τ → Prop} {t : τ} :
    wp cut (focus get put m) Q t ↔ wp cut m (fun a s => Q a (put s t)) (get t) := by
  simp only [wp, focus]
  cases m (get t) <;> rfl

theorem wp_ite {c : Prop} [Decidable c] {x y : Run σ α} :
    wp cut (if c then x else y) Q s ↔ if c then wp cut x Q s else wp cut y Q s := by
  split <;> rfl

/-- What is asked after a round: one thing if the loop goes on, another if it ends. -/
def afterRound (again : α → σ → Prop) (done : β → σ → Prop) : Round α β → σ → Prop
  | .again a => again a
  | .finish b => done b

@[simp] theorem afterRound_again {again : α → σ → Prop} {done : β → σ → Prop} {a : α} :
    afterRound again done (.again a) = again a := rfl

@[simp] theorem afterRound_finish {again : α → σ → Prop} {done : β → σ → Prop} {b : β} :
    afterRound again done (.finish b) = done b := rfl

/-- A loop with rounds left runs its body. -/
theorem wp_loop_succ {n : Nat} {body : α → Run σ (Round α β)} {done : β → σ → Prop} {a : α} :
    wp cut (loop (n + 1) body a) done s ↔
      wp cut (body a) (afterRound (fun a' => wp cut (loop n body a') done) done) s := by
  simp only [wp, loop]
  cases body a s with
  | error f s' => rfl
  | ok r s' => cases r <;> rfl

/-- **The rule for loops.** `I n` holds before a round with `n` rounds left, this one included; a loop
that has none left is cut short. -/
theorem wp_loop {I : Nat → α → σ → Prop} {body : α → Run σ (Round α β)} {D : β → σ → Prop}
    (stop : ∀ a s, I 0 a s → cut)
    (round : ∀ n a s, I (n + 1) a s → wp cut (body a) (afterRound (I n) D) s) :
    ∀ n a s, I n a s → wp cut (loop n body a) D s := by
  intro n
  induction n with
  | zero => intro a s h; exact stop a s h
  | succ n ih =>
    intro a s h
    rw [wp_loop_succ]
    refine wp_mono (round n a s h) fun r s' hr => ?_
    cases r with
    | again a' => exact ih a' s' hr
    | finish b => exact hr

/-! ### Programs whose value may be missing -/

variable {Q : Option α → σ → Prop}

@[simp] theorem wp_run_pure {a : α} :
    wp cut (pure a : OptionT (Run σ) α).run Q s ↔ Q (some a) s := Iff.rfl

@[simp] theorem wp_run_failure : wp cut (failure : OptionT (Run σ) α).run Q s ↔ Q none s := Iff.rfl

@[simp] theorem wp_run_mk {m : Run σ (Option α)} :
    wp cut (OptionT.mk m).run Q s ↔ wp cut m Q s := Iff.rfl

@[simp] theorem wp_run_lift {m : Run σ α} :
    wp cut (OptionT.lift m).run Q s ↔ wp cut m (fun a => Q (some a)) s := by
  rw [OptionT.run_lift, wp_bind]
  rfl

/-- One step after the other; what comes after a missing value is not run. -/
@[simp] theorem wp_run_bind {x : OptionT (Run σ) β} {f : β → OptionT (Run σ) α} :
    wp cut (x >>= f).run Q s ↔
      wp cut x.run (fun r s' => r.elim (Q none s') fun b => wp cut (f b).run Q s') s := by
  rw [OptionT.run_bind, Option.elimM, wp_bind]
  unfold wp
  cases x.run s with
  | error h s' => rfl
  | ok r s' => cases r <;> rfl

end Run

@[simp] theorem wp_onEngine {m : Run (Engine σ) α} {Q : α → Driver σ → Prop} {d : Driver σ} :
    Run.wp cut (onEngine m) Q d ↔
      Run.wp cut m (fun a e => Q a { d with engine := e }) d.engine :=
  Run.wp_focus

@[simp] theorem wp_onDevice {m : Run σ α} {Q : α → Engine σ → Prop} {e : Engine σ} :
    Run.wp cut (onDevice m) Q e ↔
      Run.wp cut m (fun a d => Q a { e with device := d }) e.device :=
  Run.wp_focus

namespace Attempt

/-- What is asked of a result: one thing of a value, another of a fault. -/
def outcome (Q : α → σ → Prop) (F : Fault → σ → Prop) : Except Fault α → σ → Prop
  | .ok a => Q a
  | .error f => F f

/-- **A run of `x` from `s` ends with a value and a state that satisfy `Q`, or with a fault and a
state that satisfy `F`**, or it is cut short and `cut` holds. -/
def wp (cut : Prop) (x : Attempt σ α) (Q : α → σ → Prop) (F : Fault → σ → Prop) (s : σ) : Prop :=
  Run.wp cut x.run (outcome Q F) s

variable {Q Q' : α → σ → Prop} {F F' : Fault → σ → Prop} {s : σ}

theorem wp_mono {x : Attempt σ α} (h : wp cut x Q F s) (hQ : ∀ a s', Q a s' → Q' a s')
    (hF : ∀ f s', F f s' → F' f s') : wp cut x Q' F' s := by
  refine Run.wp_mono h fun r s' hr => ?_
  cases r with
  | ok a => exact hQ a s' hr
  | error f => exact hF f s' hr

/-- What is guaranteed of a run if it returns goes with what is guaranteed of it. -/
theorem wp_and {x : Attempt σ α} (h : wp True x Q F s) (h' : wp cut x Q' F' s) :
    wp cut x (fun a s' => Q a s' ∧ Q' a s') (fun f s' => F f s' ∧ F' f s') s := by
  refine Run.wp_mono (Run.wp_and h h') fun r s' hr => ?_
  cases r with
  | ok a => exact hr
  | error f => exact hr

/-- A fault as a value. -/
@[simp] theorem wp_run {x : Attempt σ α} {R : Except Fault α → σ → Prop} :
    Run.wp cut x.run R s ↔ wp cut x (fun a => R (.ok a)) (fun f => R (.error f)) s := by
  have hR : outcome (fun a => R (.ok a)) (fun f => R (.error f)) = R := by
    funext r
    cases r <;> rfl
  rw [wp, hR]

@[simp] theorem wp_pure {a : α} : wp cut (pure a : Attempt σ α) Q F s ↔ Q a s := Iff.rfl

@[simp] theorem wp_throw {f : Fault} : wp cut (throw f : Attempt σ α) Q F s ↔ F f s := Iff.rfl

@[simp] theorem wp_bind {x : Attempt σ β} {f : β → Attempt σ α} :
    wp cut (x >>= f) Q F s ↔ wp cut x (fun b s' => wp cut (f b) Q F s') F s := by
  unfold wp
  rw [ExceptT.run_bind, Run.wp_bind]
  unfold Run.wp
  cases x.run s with
  | error h s' => rfl
  | ok r s' => cases r <;> rfl

@[simp] theorem wp_lift {m : Run σ α} : wp cut (lift m) Q F s ↔ Run.wp cut m Q s := by
  simp only [wp, Run.wp, lift, ExceptT.run_lift, Functor.map, EStateM.map]
  cases m s <;> rfl

@[simp] theorem wp_liftResult {r : Except Fault α} :
    wp cut (liftResult r) Q F s ↔ outcome Q F r s := Iff.rfl

@[simp] theorem wp_mk {m : Run σ (Except Fault α)} :
    wp cut (ExceptT.mk m) Q F s ↔ Run.wp cut m (outcome Q F) s := Iff.rfl

@[simp] theorem wp_get {Q : σ → σ → Prop} : wp cut (get : Attempt σ σ) Q F s ↔ Q s s := Iff.rfl

@[simp] theorem wp_modify {f : σ → σ} {Q : Unit → σ → Prop} :
    wp cut (modify f : Attempt σ Unit) Q F s ↔ Q () (f s) := Iff.rfl

@[simp] theorem wp_focus {get : τ → σ} {put : σ → τ → τ} {x : Attempt σ α} {Q : α → τ → Prop}
    {F : Fault → τ → Prop} {t : τ} :
    wp cut (focus get put x) Q F t ↔
      wp cut x (fun a s => Q a (put s t)) (fun f s => F f (put s t)) (get t) := by
  simp only [wp, Run.wp, focus, Run.focus, ExceptT.run_mk]
  cases x.run (get t) with
  | error h s' => rfl
  | ok r s' => cases r <;> rfl

end Attempt

@[simp] theorem wp_tryEngine {m : Attempt (Engine σ) α} {Q : α → Driver σ → Prop}
    {F : Fault → Driver σ → Prop} {d : Driver σ} :
    Attempt.wp cut (tryEngine m) Q F d ↔
      Attempt.wp cut m (fun a e => Q a { d with engine := e }) (fun f e => F f { d with engine := e })
        d.engine :=
  Attempt.wp_focus

@[simp] theorem wp_onDriver {m : Run (Driver σ) α} {Q : α → Wifi σ → Prop} {w : Wifi σ} :
    Run.wp cut (onDriver m) Q w ↔
      Run.wp cut m (fun a d => Q a { w with driver := d }) w.driver :=
  Run.wp_focus

@[simp] theorem wp_tryDriver {m : Attempt (Driver σ) α} {Q : α → Wifi σ → Prop}
    {F : Fault → Wifi σ → Prop} {w : Wifi σ} :
    Attempt.wp cut (tryDriver m) Q F w ↔
      Attempt.wp cut m (fun a d => Q a { w with driver := d }) (fun f d => F f { w with driver := d })
        w.driver :=
  Attempt.wp_focus

namespace Engine

variable [Device σ] {timeout : UInt32}

/-- Try an operation of the device until it gives a byte, for up to `timeout`. -/
def await (op : Run σ (Option UInt8)) (timeout : UInt32) : Run (Engine σ) (Option UInt8) := do
  let start ← onDevice Device.millis
  let rounds := timeout.toNat + (← settling) + 1
  Run.loop rounds (fun () => do
    match ← onDevice op with
    | some b => return .finish (some b)
    | none =>
      if timeout ≤ (← onDevice (elapsed start)) then return .finish none
      else return .again ()) ()

theorem awaitByte_eq : (awaitByte timeout : Run (Engine σ) _) = await Device.read timeout := rfl

theorem awaitPeek_eq : (awaitPeek timeout : Run (Engine σ) _) = await Device.peek timeout := rfl

/-- One round of a drain, after `dropped` bytes were thrown away. -/
def drainRound (warn : Bool) (dropped : Nat) : Run (Engine σ) (Round Nat Nat) := do
  if (← onDevice Device.available) = 0 then return .finish dropped
  else
    match ← onDevice Device.read with
    | none => return .finish dropped
    | some b =>
      if warn then traceByte b
      return .again (dropped + 1)

/-- The end of a drain that has thrown away `dropped` bytes: receive errors are noted in the log. -/
def reportErrors (dropped : Nat) : Run (Engine σ) Nat := do
  let errors ← onDevice Device.takeErrors
  if !errors.isEmpty then
    logWarn s!"UART receive errors: {errors.describe}"
  return dropped

/-- **A drain reads until nothing waits**, counts what it has read and notes it in the log. -/
theorem drain_eq (warn : Bool) : (drain warn : Run (Engine σ) Nat) = (do
    let dropped ← Run.loop ((← backlog) + 1) (drainRound warn) 0
    modify fun e => { e with dropped := e.dropped + dropped }
    if 0 < dropped ∧ warn then
      logWarn s!"Dirty characters in the serial buffer! > {dropped}"
    reportErrors dropped) := rfl

end Engine

end EspWifi
