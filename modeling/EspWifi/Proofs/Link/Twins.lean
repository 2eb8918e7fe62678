import EspWifi.Proofs.Lockstep

/-!
# Twin devices

Two states of a device are twins when they behave alike from there on, but for the absolute values that
their clocks show. The engine measures time by differences alone, so what it does with one twin it
does with the other.

* `Twins`: which states of a device are twins, and how far the clock of the second one is ahead.
* `Engine.Twin`: engines on twins, whose windows and counts stand in given relations.
* `Engine.lockstep_awaitTag`, `Engine.blind_transmit`, `Engine.blind_await`: **the waits of the
  engine**. A scan forgets the window it finds.
-/

namespace EspWifi

open Run

variable {σ α β : Type}

/-- The clocks of two states related by `rel` are apart by `lead`, and are so after they were read. -/
def ClocksApart [Device σ] (rel : σ → σ → Prop) (lead : UInt32) : Prop :=
  ∀ d d', rel d d' →
    both Device.millis Device.millis (fun t e t' e' => t' = t + lead ∧ rel e e') d d'

/-- **States of a device that behave alike**, as far as commands go, but for the absolute values of the
clock. -/
structure Twins (σ : Type) [Device σ] where
  rel : σ → σ → Prop
  /-- How far the clock of the second state is ahead of that of the first. -/
  lead : UInt32
  read : Blind rel Device.read
  write (bytes : Bytes) : Blind rel (Device.write bytes)
  record (level : Level) (message : String) : Blind rel (Device.record level message)
  millis : ClocksApart rel lead
  backlog {d d' : σ} : rel d d' → Device.backlog d' = Device.backlog d
  settling {d d' : σ} : rel d d' → Device.settling d' = Device.settling d

variable [Device σ]

namespace ClocksApart

variable {rel : σ → σ → Prop} {lead : UInt32}

/-- **How much time has passed does not depend on the absolute values of the clock.** -/
theorem elapsed (h : ClocksApart rel lead) (start : UInt32) :
    Lockstep rel rel (EspWifi.elapsed start) (EspWifi.elapsed (start + lead)) := by
  intro d d' hd
  unfold EspWifi.elapsed
  refine both_bind (both_mono (h d d' hd) ?_)
  rintro t e t' e' ⟨rfl, he⟩
  have : t + lead - (start + lead) = t - start := by grind
  exact both_pure ⟨this.symm, he⟩

/-- How far the clock is from a given time depends on the absolute values as the clock does. -/
theorem elapsed_since (h : ClocksApart rel lead) (start : UInt32) (d d' : σ) (hd : rel d d') :
    both (EspWifi.elapsed start) (EspWifi.elapsed start)
      (fun t e t' e' => t' = t + lead ∧ rel e e') d d' := by
  unfold EspWifi.elapsed
  refine both_bind (both_mono (h d d' hd) ?_)
  rintro t e t' e' ⟨rfl, he⟩
  have : t + lead - start = t - start + lead := by grind
  exact both_pure ⟨this, he⟩

/-- What a program makes of differences to the time at which it began does not depend on that time. -/
theorem millis_bind {R : σ → σ → Prop} {f f' : UInt32 → Run σ α} (h : ClocksApart rel lead)
    (hf : ∀ start, Lockstep rel R (f start) (f' (start + lead))) :
    Lockstep rel R (Device.millis >>= f) (Device.millis >>= f') := by
  intro d d' hd
  refine both_bind (both_mono (h d d' hd) ?_)
  rintro t e _ e' ⟨rfl, he⟩
  exact hf t e e' he

/-- A wait on the clock takes as long for one twin as for the other. -/
theorem busyWait (h : ClocksApart rel lead) (ms : UInt32) :
    Blind rel (EspWifi.busyWait ms : Run σ Unit) := by
  unfold EspWifi.busyWait
  refine h.millis_bind fun start => .loop (fun _ => ?_) _ _
  exact (h.elapsed start).bind fun _ => .ite (.pure _) (.pure _)

end ClocksApart

/-- **Engines on twins with the same timeouts.** Their windows are related by `W`, and the counts of
bytes they threw away by `K`. -/
structure Engine.Twin (T : Twins σ) (W : Window windowSize → Window windowSize → Prop)
    (K : Nat → Nat → Prop) (e e' : Engine σ) : Prop where
  device : T.rel e.device e'.device
  window : W e.window e'.window
  timeouts : e'.timeouts = e.timeouts
  dropped : K e.dropped e'.dropped

namespace Engine

variable {T : Twins σ} {W : Window windowSize → Window windowSize → Prop} {K : Nat → Nat → Prop}

/-- A device program in lockstep is in lockstep on the device of an engine. -/
theorem lockstep_onDevice {m m' : Run σ α} (h : Lockstep T.rel T.rel m m') :
    Lockstep (Twin T W K) (Twin T W K) (onDevice m) (onDevice m') := by
  intro e e' he
  refine both_focus (both_mono (h _ _ he.device) ?_)
  rintro a d b d' ⟨rfl, hd⟩
  exact ⟨rfl, hd, he.window, he.timeouts, he.dropped⟩

theorem blind_record (level : Level) (message : String) :
    Blind (Twin T W K) (MonadLog.record level message) :=
  lockstep_onDevice (T.record level message)

theorem lockstep_elapsed (start : UInt32) :
    Lockstep (Twin T W K) (Twin T W K) (onDevice (elapsed start))
      (onDevice (elapsed (start + T.lead))) :=
  lockstep_onDevice (T.millis.elapsed start)

/-- A program that begins by reading the clock, and uses the time it read for differences only. -/
theorem lockstep_millis_bind {R : Engine σ → Engine σ → Prop} {f f' : UInt32 → Run (Engine σ) α}
    (hf : ∀ start, Lockstep (Twin T W K) R (f start) (f' (start + T.lead))) :
    Lockstep (Twin T W K) R (onDevice Device.millis >>= f) (onDevice Device.millis >>= f') := by
  intro e e' he
  refine both_bind (both_focus (both_mono (T.millis _ _ he.device) ?_))
  rintro t d _ d' ⟨rfl, hd⟩
  exact hf t _ _ ⟨hd, he.window, he.timeouts, he.dropped⟩

theorem blind_settling : Blind (Twin T W K) settling :=
  .get_bind fun e e' he => by
    rw [T.settling he.device]
    exact .pure _

theorem blind_backlog : Blind (Twin T W K) backlog :=
  .get_bind fun e e' he => by
    rw [T.backlog he.device]
    exact .pure _

/-- **A scan ends alike on twins, and leaves the same window**, whatever windows it found. -/
theorem lockstep_awaitTag (timeout : UInt32) (tag : Option Bytes) (known : Bool) :
    Lockstep (Twin T W K) (Twin T Eq K) (awaitTag timeout tag known)
      (awaitTag timeout tag known) := by
  unfold awaitTag
  have reset : Lockstep (Twin T W K) (Twin T Eq K)
      (modify fun e : Engine σ => { e with window := .empty })
      (modify fun e : Engine σ => { e with window := .empty }) :=
    .modify fun e e' he => ⟨he.device, rfl, he.timeouts, he.dropped⟩
  have push : ∀ b : UInt8, Blind (Twin T Eq K)
      (modify fun e : Engine σ => { e with window := e.window.push b }) :=
    fun b => .modify fun e e' he =>
      ⟨he.device, congrArg (·.push b) he.window, he.timeouts, he.dropped⟩
  refine reset.bind fun _ => lockstep_millis_bind fun start =>
    blind_settling.bind fun _ => blind_backlog.bind fun _ => .loop (fun _ => ?_) _ _
  refine (lockstep_elapsed start).bind fun _ => .ite ?_ ?_
  · refine (lockstep_onDevice T.read).bind fun r => ?_
    cases r with
    | none => exact .pure _
    | some b =>
      refine (blind_record _ _).bind fun _ => (push b).bind fun _ => .get_bind fun e e' he => ?_
      rw [he.window]
      split <;> exact .pure _
  · exact (blind_record _ _).bind fun _ => .pure _

/-- **A transmission ends alike on twins.** -/
theorem blind_transmit (bytes : Bytes) : Attempt.Blind (Twin T W K) (transmit bytes) := by
  unfold transmit
  refine .mk (lockstep_millis_bind fun start => .get_bind fun e e' he => ?_)
  rw [he.timeouts]
  refine blind_settling.bind fun _ => .loop (fun rest => .ite (.pure _) ?_) _ _
  refine (lockstep_onDevice (T.write rest)).bind fun n => ?_
  cases n with
  | zero => exact (lockstep_elapsed start).bind fun _ => .ite (.pure _) (.pure _)
  | succ n => exact .pure _

/-- **A wait for a byte ends alike on twins** if its tries do. -/
theorem blind_await {op : Run σ (Option UInt8)} (hop : Blind T.rel op) (timeout : UInt32) :
    Blind (Twin T W K) (await op timeout) := by
  unfold await
  refine lockstep_millis_bind fun start => blind_settling.bind fun _ => .loop (fun _ => ?_) _ _
  refine (lockstep_onDevice hop).bind fun r => ?_
  cases r with
  | some b => exact .pure _
  | none => exact (lockstep_elapsed start).bind fun _ => .ite (.pure _) (.pure _)

end Engine

end EspWifi
