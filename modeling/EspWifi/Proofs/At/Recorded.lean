import EspWifi.At.Integer
import EspWifi.Proofs.Link.Recorder
import EspWifi.Proofs.Lockstep

/-!
# The engine and the record

What the parts of the engine add to the record of the link, wherever they end.

* `Recorder.keeps_awaitTag`, `Recorder.keeps_drain`, `Recorder.keeps_readInt`: the parts that send nothing.
* `Recorder.ends_awaitTag`: a scan hears the bytes that decide it.
* `NeverBlocked`, `KeepsUp`: transmitters that always take something in time, and those that **take every line
  in time**, on the device without the recorder.
* `Recorder.lockstep_transmit`: the recorder changes nothing in a transmission.
* `Recorder.ends_transmit_log`: a transmission has sent everything when it returns without a fault.
-/

namespace EspWifi

open Run LinkEvent

variable {σ τ α : Type} [Device σ] [Pins σ] {P : LinkEvent → Prop}

namespace Recorder

/-! ### Parts that send nothing -/

theorem keeps_log (level : Level) (message : String) :
    Keeps (Adds P) (MonadLog.record level message : Run (Engine (Recorder σ)) Unit) :=
  keeps_onDevice (keeps_record level message)

theorem keeps_elapsed (start : UInt32) :
    Keeps (Grows P) (elapsed start : Run (Recorder σ) UInt32) :=
  .bind keeps_millis fun _ => .pure _

theorem keeps_backlog : Keeps (Adds P) (Engine.backlog : Run (Engine (Recorder σ)) Nat) :=
  .bind .get fun _ => .pure _

theorem keeps_settling : Keeps (Adds P) (Engine.settling : Run (Engine (Recorder σ)) Nat) :=
  .bind .get fun _ => .pure _

theorem keeps_takeDropped : Keeps (Adds P) (Engine.takeDropped : Run (Engine (Recorder σ)) Nat) :=
  fun e => ⟨refl_of (Grows P) e.device, rfl⟩

section

variable (hP : ∀ b, P (heard b))

include hP

theorem keeps_awaitTag (timeout : UInt32) (tag : Option Bytes) (known : Bool) :
    Keeps (Adds P) (Engine.awaitTag timeout tag known : Run (Engine (Recorder σ)) Scan) := by
  unfold Engine.awaitTag
  refine .bind (keeps_modify fun _ => ⟨rfl, rfl⟩) fun _ =>
    .bind (keeps_onDevice keeps_millis) fun start => .bind keeps_settling fun _ =>
    .bind keeps_backlog fun _ => .loop (fun _ => ?_) _ _
  refine .bind (keeps_onDevice (keeps_elapsed start)) fun _ =>
    .ite ?_ (.bind (keeps_log _ _) fun _ => .pure _)
  refine .bind (keeps_onDevice (keeps_read hP)) fun byte => ?_
  cases byte with
  | none => exact .pure _
  | some b =>
    refine .bind (keeps_log _ _) fun _ => .bind (keeps_modify fun _ => ⟨rfl, rfl⟩) fun _ =>
      .bind .get fun e => ?_
    cases Scan.verdict e.window tag known <;> exact .pure _

theorem keeps_skipPast (tag : Bytes) (timeout : UInt32) :
    Keeps (Adds P) (Engine.skipPast tag timeout : Run (Engine (Recorder σ)) Bool) :=
  .bind (keeps_awaitTag hP _ _ _) fun _ => .pure _

omit hP in
theorem keeps_await {op : Run (Recorder σ) (Option UInt8)} (h : Keeps (Grows P) op)
    (timeout : UInt32) : Keeps (Adds P) (Engine.await op timeout) := by
  refine .bind (keeps_onDevice keeps_millis) fun start => .bind keeps_settling fun _ =>
    .loop (fun _ => .bind (keeps_onDevice h) fun byte => ?_) _ _
  cases byte with
  | some b => exact .pure _
  | none =>
    exact .bind (keeps_onDevice (keeps_elapsed start)) fun _ => .ite (.pure _) (.pure _)

theorem keeps_awaitByte (timeout : UInt32) :
    Keeps (Adds P) (Engine.awaitByte timeout : Run (Engine (Recorder σ)) _) := by
  rw [Engine.awaitByte_eq]
  exact keeps_await (keeps_read hP) timeout

omit hP in
theorem keeps_awaitPeek (timeout : UInt32) :
    Keeps (Adds P) (Engine.awaitPeek timeout : Run (Engine (Recorder σ)) _) := by
  rw [Engine.awaitPeek_eq]
  exact keeps_await keeps_peek timeout

theorem keeps_drainRound (warn : Bool) (dropped : Nat) :
    Keeps (Adds P) (Engine.drainRound warn dropped : Run (Engine (Recorder σ)) _) := by
  refine .bind (keeps_onDevice keeps_available) fun _ => .ite (.pure _) ?_
  refine .bind (keeps_onDevice (keeps_read hP)) fun byte => ?_
  cases byte with
  | none => exact .pure _
  | some b => exact .ite (.bind (keeps_log _ _) fun _ => .pure _) (.pure _)

omit hP in
theorem keeps_reportErrors (dropped : Nat) :
    Keeps (Adds P) (Engine.reportErrors dropped : Run (Engine (Recorder σ)) Nat) :=
  .bind (keeps_onDevice keeps_takeErrors) fun _ =>
    .ite (.bind (keeps_log _ _) fun _ => .pure _) (.pure _)

theorem keeps_drain (warn : Bool) :
    Keeps (Adds P) (Engine.drain warn : Run (Engine (Recorder σ)) Nat) := by
  rw [Engine.drain_eq]
  refine .bind keeps_backlog fun _ => .bind (.loop (keeps_drainRound hP warn) _ _) fun dropped => ?_
  refine .bind (keeps_modify fun _ => ⟨rfl, rfl⟩) fun _ => .ite ?_ (keeps_reportErrors _)
  exact .bind (keeps_log _ _) fun _ => keeps_reportErrors _

theorem keeps_readField (start stop : Bytes) (m : Nat) :
    Attempt.Keeps (Adds P)
      (Engine.readField start stop m : Attempt (Engine (Recorder σ)) String) := by
  have fail (level : Level) (message : String) (f : Fault) : Attempt.Keeps (Adds P) (do
      MonadLog.record level message
      throw f : Attempt (Engine (Recorder σ)) String) :=
    .bind (.lift (keeps_log level message)) fun _ => .throw f
  unfold Engine.readField
  refine .bind (.lift .get) fun e => .bind (.lift (keeps_awaitTag hP _ _ _)) fun scan => ?_
  cases scan with
  | matched t => exact fail _ _ _
  | timedOut => exact fail _ _ _
  | found =>
    refine .bind (.lift (keeps_awaitTag hP _ _ _)) fun scan => ?_
    cases scan with
    | matched t => exact fail _ _ _
    | timedOut => exact fail _ _ _
    | found =>
      exact .bind (.lift .get) fun _ => .bind (.lift (keeps_awaitTag hP _ _ _)) fun _ =>
        .liftResult _

theorem keeps_skipToNumber (timeout : UInt32) :
    Keeps (Adds P) (Engine.skipToNumber timeout : Run (Engine (Recorder σ)) _) := by
  refine .bind keeps_backlog fun _ => .loop (fun _ => ?_) _ _
  refine .bind (keeps_awaitPeek _) fun byte => ?_
  cases byte with
  | none => exact .pure _
  | some b => exact .ite (.pure _) (.bind (keeps_onDevice (keeps_read hP)) fun _ => .pure _)

theorem keeps_readNumeral (timeout : UInt32) (first : UInt8) :
    Keeps (Adds P) (Engine.readNumeral timeout first : Run (Engine (Recorder σ)) _) := by
  refine .bind keeps_backlog fun _ => .loop (fun (n, b) => ?_) _ _
  dsimp only
  cases n.next b with
  | overflow => exact .pure _
  | stop => exact .pure _
  | take n =>
    refine .bind (keeps_onDevice (keeps_read hP)) fun _ => .bind (keeps_awaitPeek _) fun byte => ?_
    cases byte <;> exact .pure _

theorem keeps_readInt : Keeps (Adds P) (Engine.readInt : Run (Engine (Recorder σ)) _) := by
  refine .bind (.bind .get fun _ => .pure _) fun timeout =>
    .bind (keeps_skipToNumber hP _) fun byte => ?_
  cases byte with
  | none => exact .pure _
  | some first => exact keeps_readNumeral hP _ _

end

/-- **A scan hears bytes that decide it**, or bytes that do not before its time is over. -/
theorem ends_awaitTag (e : Engine (Recorder σ)) (timeout : UInt32) (tag : Option Bytes)
    (known : Bool) :
    ends (Adds IsHeard e) (Engine.awaitTag timeout tag known) (fun s e' => Adds IsHeard e e' ∧
      ∃ c, log e' = log e ++ hear c ∧
        (Scan.Decided tag known c s ∨ s = .timedOut ∧ Scan.Silent tag known c)) e := by
  have heard {c : Bytes} {e' : Engine (Recorder σ)} (hadds : Adds IsHeard e e')
      (hc : e.Moves ledger e' c []) : log e' = log e ++ hear c := by
    obtain ⟨es, hlog, hes⟩ := hadds.exists_log
    have hbytes : heardBytes (log e') = heardBytes (log e) ++ c := hc.device
    rw [hlog, heardBytes_append] at hbytes
    rw [hlog, eq_hear_of_isHeard hes, List.append_cancel_left hbytes]
  refine ends_mono (ends_of_wp (keeps_awaitTag (fun _ => trivial) timeout tag known e)
    (ledger.wp_awaitTag_decided (Q := fun s e' => ∃ c, e.Moves ledger e' c [] ∧
      (Scan.Decided tag known c s ∨ s = .timedOut ∧ Scan.Silent tag known c)) ?_ ?_))
    (fun _ h => h) ?_
  · intro c s e' hc _ hs
    exact ⟨c, hc, .inl hs⟩
  · intro c e' hc _ hs
    exact ⟨c, hc, .inr ⟨rfl, hs⟩⟩
  · rintro s e' ⟨hadds, c, hc, hs⟩
    exact ⟨hadds, c, heard hadds hc, hs⟩

end Recorder

/-! ### Transmissions -/

/-- **A transmitter that never stays blocked**: whatever state the device gets into, it takes some of what it
is offered before the time for sending is over. -/
def NeverBlocked (d : σ) : Prop :=
  ∀ d', Device.Reaches d d' → ∀ bytes, ¬ Device.StaysBlocked ({} : Timeouts).send d' bytes

/-- **A transmitter that keeps up**: whatever state the device gets into, it takes all of a line before the
time for sending is over. That time runs from the first offer, whatever was taken since, so it is not enough
that the transmitter never stays blocked. -/
def KeepsUp (d : σ) : Prop :=
  ∀ d', Device.Reaches d d' → ∀ bytes, bytes.length ≤ lineCapacity →
    ¬ Device.TooSlow ({} : Timeouts).send d' bytes

/-- A line goes out through a transmitter that keeps up. -/
theorem KeepsUp.wp_transmit {d : σ} (hd : KeepsUp d) {e : Engine σ} (hreaches : Device.Reaches d e.device)
    (htimeouts : e.timeouts = {}) {bytes : Bytes} (hbytes : bytes.length ≤ lineCapacity) :
    Attempt.wp True (Engine.transmit bytes) (fun _ _ => True) (fun _ _ => False) e := by
  refine Ledger.blank.wp_transmit_tooSlow (fun _ _ => trivial) fun _ _ _ _ hslow => ?_
  rw [htimeouts] at hslow
  exact hd e.device hreaches bytes hbytes hslow

namespace Recorder

/-- The recorder of a device. -/
abbrev Of (r : Recorder σ) (d : σ) : Prop := r.device = d

/-- Engines on a device, one of them with a recorder before it. -/
structure EngineOf (e : Engine (Recorder σ)) (e' : Engine σ) : Prop where
  device : e.device.Of e'.device
  timeouts : e.timeouts = e'.timeouts

omit [Device σ] [Pins σ] in
theorem lockstep_behind (m : Run σ α) : Lockstep Of Of (behind m) m := by
  rintro r _ rfl
  unfold both behind focus
  cases m r.device with
  | ok a d => exact ⟨rfl, rfl⟩
  | error f d => exact (rfl : f = f)

omit [Pins σ] in
theorem lockstep_write (bytes : Bytes) :
    Lockstep Of Of (Device.write bytes : Run (Recorder σ) Nat) (Device.write bytes : Run σ Nat) := by
  have noted (n : Nat) : Lockstep Of Of (do note (send (bytes.take n)); return n) (pure n : Run σ Nat) :=
    fun _ _ h => ⟨rfl, h⟩
  have h := (lockstep_behind (Device.write bytes : Run σ Nat)).bind noted
  rwa [bind_pure] at h

omit [Device σ] [Pins σ] in
theorem lockstep_onDevice {m : Run (Recorder σ) α} {m' : Run σ α} (h : Lockstep Of Of m m') :
    Lockstep EngineOf EngineOf (onDevice m) (onDevice m') := by
  intro e e' he
  refine both_focus (both_mono (h _ _ he.device) ?_)
  rintro a r b d ⟨rfl, hd⟩
  exact ⟨rfl, hd, he.timeouts⟩

omit [Pins σ] in
/-- **The recorder changes nothing in a transmission.** -/
theorem lockstep_transmit (bytes : Bytes) :
    Attempt.Lockstep EngineOf EngineOf
      (Engine.transmit bytes : Attempt (Engine (Recorder σ)) Unit)
      (Engine.transmit bytes : Attempt (Engine σ) Unit) := by
  have settling : Lockstep EngineOf EngineOf (Engine.settling : Run (Engine (Recorder σ)) Nat)
      (Engine.settling : Run (Engine σ) Nat) :=
    .get_bind fun e e' he => by
      have h : Device.settling e.device = Device.settling e'.device :=
        congrArg Device.settling he.device
      rw [h]
      exact .pure _
  have elapsed (start : UInt32) : Lockstep Of Of (elapsed start : Run (Recorder σ) UInt32)
      (elapsed start : Run σ UInt32) :=
    (lockstep_behind Device.millis).bind fun _ => .pure _
  unfold Engine.transmit
  refine .mk (.bind (lockstep_onDevice (lockstep_behind _)) fun start => .get_bind fun e e' he => ?_)
  rw [he.timeouts]
  refine settling.bind fun _ => .loop (fun rest => .ite (.pure _) ?_) _ _
  refine (lockstep_onDevice (lockstep_write rest)).bind fun n => ?_
  cases n with
  | zero => exact (lockstep_onDevice (elapsed start)).bind fun _ => .ite (.pure _) (.pure _)
  | succ n => exact .pure _

theorem ends_offer (e : Engine (Recorder σ)) (bytes : Bytes) :
    ends (Adds IsNone e) (onDevice (Device.write bytes)) (fun n e' => Adds (fun _ => True) e e' ∧
      log e' = log e ++ send (bytes.take n)) e := by
  unfold onDevice
  rw [ends_focus]
  refine ends_mono (ends_write e.device bytes) (fun _ h => ⟨h, rfl⟩) ?_
  rintro n r ⟨hevents, hreaches⟩
  exact ⟨⟨⟨⟨_, hevents, fun _ _ => trivial⟩, hreaches⟩, rfl⟩, hevents⟩

/-- **What a transmission adds to the record**: a beginning of the bytes, and all of them if it returns
without a fault. -/
theorem ends_transmit_log (e : Engine (Recorder σ)) (bytes : Bytes) :
    Attempt.ends (fun e' => ∃ w, w <+: bytes ∧ log e' = log e ++ send w) (Engine.transmit bytes)
      (fun _ e' => Adds (fun _ => True) e e' ∧ log e' = log e ++ send bytes)
      (fun f _ => f = .timeout) e := by
  -- what was sent and what is still to be offered are all the bytes
  let Sending (rest : Bytes) (e' : Engine (Recorder σ)) : Prop :=
    Adds (fun _ => True) e e' ∧ ∃ w, w ++ rest = bytes ∧ log e' = log e ++ send w
  have cut {rest : Bytes} {e' : Engine (Recorder σ)} (h : Sending rest e') :
      ∃ w, w <+: bytes ∧ log e' = log e ++ send w := by
    obtain ⟨-, w, rfl, hlog⟩ := h
    exact ⟨w, List.prefix_append _ _, hlog⟩
  have still {rest : Bytes} {e' e'' : Engine (Recorder σ)} (h : Sending rest e')
      (h' : Adds IsNone e' e'') : Sending rest e'' := by
    obtain ⟨hadds, w, hw, hlog⟩ := h
    exact ⟨trans_of (Adds _) hadds (h'.mono fun _ _ => trivial), w, hw, by rw [h'.log_eq, hlog]⟩
  have start : Sending bytes e :=
    ⟨refl_of (Adds _) e, [], rfl, (List.append_nil _).symm⟩
  unfold Engine.transmit
  rw [Attempt.ends_mk, ends_bind]
  refine (keeps_onDevice keeps_millis).ends (fun _ h => cut (still start h)) fun clock e₁ h₁ => ?_
  unfold Engine.settling
  simp only [ends_bind, ends_get, ends_pure]
  refine ends_loop (I := Sending) (fun _ _ => cut) (fun rest e₂ h₂ => ?_) _ _ _ (still start h₁)
  split
  · rename_i hrest
    obtain rfl := List.isEmpty_iff.1 hrest
    obtain ⟨hadds, w, rfl, hlog⟩ := h₂
    rw [ends_pure]
    refine ⟨hadds, ?_⟩
    rw [hlog, List.append_nil]
  rw [ends_bind]
  refine ends_mono (ends_offer e₂ rest) (fun _ h => cut (still h₂ h)) ?_
  rintro n e₃ ⟨hadds, hlog⟩
  have h₃ : Sending (rest.drop n) e₃ := by
    obtain ⟨hadds₂, w, hw, hlog₂⟩ := h₂
    refine ⟨trans_of (Adds _) hadds₂ hadds, w ++ rest.take n, ?_, ?_⟩
    · rw [List.append_assoc, List.take_append_drop, hw]
    · rw [hlog, hlog₂, send_append, List.append_assoc]
  cases n with
  | succ n => exact h₃
  | zero =>
    dsimp only
    rw [ends_bind]
    refine (keeps_onDevice (keeps_elapsed clock)).ends (fun _ h => cut (still h₃ h)) ?_
    intro t e₄ h₄
    split
    · exact (rfl : Fault.timeout = Fault.timeout)
    · exact still h₃ h₄

end Recorder

end EspWifi
