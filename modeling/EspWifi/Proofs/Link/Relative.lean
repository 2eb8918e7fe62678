import EspWifi.Proofs.Link.Twins

/-!
# Programs that measure time by differences

A program is relative if it does the same on twin devices, which are told apart by nothing but the
absolute values of their clocks. Reading the clock is not relative, but the time that has passed since
an earlier look is; so programs that use the clock for nothing else are relative, and whatever is put
together from relative programs is.

* `TwinDevices`: twins that no operation of the device tells apart.
* `OnDevice`: states with a device in them; `TwinDevices.Alike`: such states that differ in nothing but
  their devices, which are twins.
* `Run.Relative`, `Attempt.Relative`: **programs that do the same on twins**.
* `DevicePart`: a part with the device in it; programs on it are relative on the whole if they are.
-/

namespace EspWifi

open Run

variable {σ τ υ α β : Type}

/-- **Twins that no operation of the device tells apart.** -/
structure TwinDevices (σ : Type) [Device σ] extends Twins σ where
  available : Blind rel Device.available
  peek : Blind rel Device.peek
  takeErrors : Blind rel Device.takeErrors
  delay (ms : UInt32) : Blind rel (Device.delay ms)

/-- A state with a device in it, which can be replaced by another one. -/
class OnDevice (τ : Type) (σ : outParam Type) where
  device : τ → σ
  replace : σ → τ → τ
  device_replace (d : σ) (t : τ) : device (replace d t) = d
  replace_replace (d d' : σ) (t : τ) : replace d (replace d' t) = replace d t

variable [Device σ] [OnDevice τ σ] [OnDevice υ σ] {T : TwinDevices σ}

/-- **States that differ in nothing but their devices, which are twins.** -/
def TwinDevices.Alike (T : TwinDevices σ) (t t' : τ) : Prop :=
  ∃ d', T.rel (OnDevice.device t) d' ∧ t' = OnDevice.replace d' t

/-- **A program that does the same on twins.** -/
def Run.Relative (T : TwinDevices σ) (m : Run τ α) : Prop := Blind T.Alike m

/-- A program that may fail and does the same on twins. -/
def Attempt.Relative (T : TwinDevices σ) (x : Attempt τ α) : Prop := Attempt.Blind T.Alike x

namespace Run.Relative

variable {m : Run τ α}

theorem pure (a : α) : Relative T (pure a : Run τ α) := Lockstep.pure a

theorem bind {f : α → Run τ β} (h : Relative T m) (hf : ∀ a, Relative T (f a)) :
    Relative T (m >>= f) := Lockstep.bind h hf

theorem ite {c : Prop} [Decidable c] {n : Run τ α} (h : Relative T m) (h' : Relative T n) :
    Relative T (if c then m else n) := Lockstep.ite h h'

theorem loop {body : α → Run τ (Round α β)} (h : ∀ a, Relative T (body a)) (n : Nat) (a : α) :
    Relative T (Run.loop n body a) := Lockstep.loop h n a

/-- What a program does with a state is relative if it has nothing to do with the device. -/
theorem get_bind {f : τ → Run τ α} (hf : ∀ d t, f (OnDevice.replace d t) = f t)
    (h : ∀ t, Relative T (f t)) : Relative T (get >>= f) := by
  refine Lockstep.get_bind ?_
  rintro t _ ⟨d', -, rfl⟩
  rw [hf]
  exact h t

theorem modifyGet {f : τ → α × τ} (hfst : ∀ d t, (f (OnDevice.replace d t)).1 = (f t).1)
    (hsnd : ∀ d t, (f (OnDevice.replace d t)).2 = OnDevice.replace d (f t).2)
    (hdevice : ∀ t, OnDevice.device (f t).2 = OnDevice.device t) :
    Relative T (modifyGet f : Run τ α) := by
  refine Lockstep.modifyGet ?_
  rintro t _ ⟨d', hd', rfl⟩
  exact ⟨(hfst d' t).symm, d', (hdevice t).symm ▸ hd', hsnd d' t⟩

theorem modify {f : τ → τ} (hf : ∀ d t, f (OnDevice.replace d t) = OnDevice.replace d (f t))
    (hdevice : ∀ t, OnDevice.device (f t) = OnDevice.device t) :
    Relative T (modify f : Run τ Unit) := by
  refine Lockstep.modify ?_
  rintro t _ ⟨d', hd', rfl⟩
  exact ⟨d', (hdevice t).symm ▸ hd', hf d' t⟩

end Run.Relative

/-- A part of a state that has the device of the whole in it. -/
structure DevicePart (get : υ → τ) (put : τ → υ → υ) : Prop where
  device_get (u : υ) : OnDevice.device (get u) = OnDevice.device u
  device_put (t : τ) (u : υ) : OnDevice.device (put t u) = OnDevice.device t
  get_replace (d : σ) (u : υ) : get (OnDevice.replace d u) = OnDevice.replace d (get u)
  put_replace (d : σ) (t : τ) (u : υ) :
    put (OnDevice.replace d t) u = OnDevice.replace d (put t u)
  replace_put (d : σ) (t : τ) (u : υ) : put t (OnDevice.replace d u) = put t u

/-- Two programs on a part with the device in it. What they keep of the part they keep of the whole. -/
theorem DevicePart.both_focus {get : υ → τ} {put : τ → υ → υ} (P : DevicePart get put)
    {m m' : Run τ α} {V : α → α → Prop}
    (h : ∀ t t', T.Alike t t' → both m m' (fun a s b s' => V a b ∧ T.Alike s s') t t') {u u' : υ}
    (hu : T.Alike u u') :
    both (Run.focus get put m) (Run.focus get put m') (fun a v b v' => V a b ∧ T.Alike v v')
      u u' := by
  obtain ⟨d', hd', rfl⟩ := hu
  have hpart : T.Alike (get u) (get (OnDevice.replace d' u)) :=
    ⟨d', (P.device_get u).symm ▸ hd', P.get_replace d' u⟩
  refine Run.both_focus (both_mono (h _ _ hpart) ?_)
  rintro a t b _ ⟨hV, e', he', rfl⟩
  refine ⟨hV, e', (P.device_put t u).symm ▸ he', ?_⟩
  rw [P.replace_put, P.put_replace]

/-- **A program on a part with the device in it is relative on the whole.** -/
theorem Run.Relative.focus {get : υ → τ} {put : τ → υ → υ} (P : DevicePart get put) {m : Run τ α}
    (h : Relative T m) : Relative T (Run.focus get put m) := fun _ _ => P.both_focus h

namespace Attempt.Relative

variable {x : Attempt τ α}

theorem pure (a : α) : Relative T (pure a : Attempt τ α) := Lockstep.pure a

theorem throw (f : Fault) : Relative T (throw f : Attempt τ α) := Lockstep.throw f

theorem bind {f : α → Attempt τ β} (h : Relative T x) (hf : ∀ a, Relative T (f a)) :
    Relative T (x >>= f) := Lockstep.bind h hf

theorem ite {c : Prop} [Decidable c] {y : Attempt τ α} (h : Relative T x) (h' : Relative T y) :
    Relative T (if c then x else y) := Lockstep.ite h h'

theorem lift {m : Run τ α} (h : m.Relative T) : Relative T (EspWifi.lift m) := Lockstep.lift h

theorem liftResult (r : Except Fault α) : Relative T (EspWifi.liftResult r : Attempt τ α) :=
  Lockstep.liftResult r

/-- A program that answers with its fault is relative, and the other way round. -/
theorem run (h : Relative T x) : x.run.Relative T := h

theorem mk {m : Run τ (Except Fault α)} (h : m.Relative T) : Relative T (ExceptT.mk m) := h

theorem get_bind {f : τ → Attempt τ α} (hf : ∀ d t, f (OnDevice.replace d t) = f t)
    (h : ∀ t, Relative T (f t)) : Relative T (get >>= f) :=
  Run.Relative.get_bind (f := fun t => (f t).run) (fun d t => congrArg _ (hf d t)) h

theorem modify {f : τ → τ} (hf : ∀ d t, f (OnDevice.replace d t) = OnDevice.replace d (f t))
    (hdevice : ∀ t, OnDevice.device (f t) = OnDevice.device t) :
    Relative T (modify f : Attempt τ Unit) :=
  lift (Run.Relative.modify hf hdevice)

theorem focus {get : υ → τ} {put : τ → υ → υ} (P : DevicePart get put) (h : Relative T x) :
    Relative T (Attempt.focus get put x) := Run.Relative.focus P h

end Attempt.Relative

/-! ### Programs whose value may be missing -/

namespace Run.Relative

variable {x : OptionT (Run τ) α}

theorem optionPure (a : α) : Relative T (Pure.pure a : OptionT (Run τ) α).run := .pure _

theorem failure : Relative T (failure : OptionT (Run τ) α).run := .pure _

theorem optionBind {f : α → OptionT (Run τ) β} (h : Relative T x.run)
    (hf : ∀ a, Relative T (f a).run) : Relative T (x >>= f).run := by
  rw [OptionT.run_bind, Option.elimM]
  refine .bind h fun r => ?_
  cases r with
  | none => exact .pure _
  | some a => exact hf a

end Run.Relative

end EspWifi
