import EspWifi.At.Integer
import EspWifi.Proofs.Link.Relative

/-!
# The engine on twins

Every operation of the engine but the bare readings of the clock is relative. The scans, the waits and
the transmission compare differences with their timeouts; the rest is made of these.

* `Engine.both_onDevice`: programs of the device, two at a time.
* `Engine.relative_awaitTag`, `Engine.relative_transmit`, `Engine.relative_awaitByte`: the waits.
* `Engine.relative_drain`, `Engine.relative_request`, `Engine.relative_queryField`: commands.
* `Engine.relative_readInt`: numbers.
-/

namespace EspWifi

open Run

variable {σ α : Type} [Device σ] {T : TwinDevices σ}

instance : OnDevice (Engine σ) σ where
  device e := e.device
  replace d e := { e with device := d }
  device_replace _ _ := rfl
  replace_replace _ _ _ := rfl

namespace Engine

/-- Engines that differ in nothing but their devices have the same windows and counts. -/
theorem alike_iff {e e' : Engine σ} : T.Alike e e' ↔ Twin T.toTwins Eq Eq e e' := by
  constructor
  · rintro ⟨d', hd', rfl⟩
    exact ⟨hd', rfl, rfl, rfl⟩
  · rintro ⟨hdevice, hwindow, htimeouts, hdropped⟩
    refine ⟨e'.device, hdevice, ?_⟩
    obtain ⟨d', window', timeouts', dropped'⟩ := e'
    obtain rfl : e.window = window' := hwindow
    obtain rfl : timeouts' = e.timeouts := htimeouts
    obtain rfl : e.dropped = dropped' := hdropped
    rfl

theorem relative_of_blind {m : Run (Engine σ) α} (h : Blind (Twin T.toTwins Eq Eq) m) :
    m.Relative T :=
  Lockstep.weaken h (fun _ _ => alike_iff.1) fun _ _ => alike_iff.2

/-! ### The device -/

/-- Two device programs keep engines alike that keep their devices so. -/
theorem both_onDevice {m m' : Run σ α} {V : α → α → Prop}
    (h : ∀ d d', T.rel d d' → both m m' (fun a d b d' => V a b ∧ T.rel d d') d d')
    {e e' : Engine σ} (he : T.Alike e e') :
    both (onDevice m) (onDevice m') (fun a s b s' => V a b ∧ T.Alike s s') e e' := by
  obtain ⟨d', hd', rfl⟩ := he
  refine both_focus (both_mono (h _ _ hd') ?_)
  rintro a s b s' ⟨hV, hs⟩
  exact ⟨hV, s', hs, rfl⟩

theorem relative_onDevice {m : Run σ α} (h : Blind T.rel m) : (onDevice m).Relative T :=
  fun _ _ => both_onDevice h

theorem relative_record (level : Level) (message : String) :
    (MonadLog.record level message : Run (Engine σ) Unit).Relative T :=
  relative_onDevice (T.record level message)

theorem relative_backlog : (backlog : Run (Engine σ) Nat).Relative T :=
  relative_of_blind blind_backlog

/-! ### Waits -/

theorem relative_awaitTag (timeout : UInt32) (tag : Option Bytes) (known : Bool) :
    (awaitTag timeout tag known : Run (Engine σ) Scan).Relative T :=
  relative_of_blind (lockstep_awaitTag timeout tag known)

theorem relative_skipPast (tag : Bytes) (timeout : UInt32) :
    (skipPast tag timeout : Run (Engine σ) Bool).Relative T :=
  .bind (relative_awaitTag _ _ _) fun _ => .pure _

theorem relative_transmit (bytes : Bytes) :
    (transmit bytes : Attempt (Engine σ) Unit).Relative T :=
  relative_of_blind (blind_transmit bytes)

theorem relative_awaitByte (timeout : UInt32) :
    (awaitByte timeout : Run (Engine σ) _).Relative T := by
  rw [awaitByte_eq]
  exact relative_of_blind (blind_await T.read timeout)

theorem relative_awaitPeek (timeout : UInt32) :
    (awaitPeek timeout : Run (Engine σ) _).Relative T := by
  rw [awaitPeek_eq]
  exact relative_of_blind (blind_await T.peek timeout)

/-! ### Commands -/

theorem relative_fieldTimeout : (fieldTimeout : Run (Engine σ) UInt32).Relative T :=
  .get_bind (fun _ _ => rfl) fun _ => .pure _

theorem relative_takeDropped : (takeDropped : Run (Engine σ) Nat).Relative T :=
  .modifyGet (fun _ _ => rfl) (fun _ _ => rfl) fun _ => rfl

theorem relative_drainRound (warn : Bool) (dropped : Nat) :
    (drainRound warn dropped : Run (Engine σ) _).Relative T := by
  refine .bind (relative_onDevice T.available) fun _ => .ite (.pure _) ?_
  refine .bind (relative_onDevice T.read) fun r => ?_
  cases r with
  | none => exact .pure _
  | some b => exact .ite (.bind (relative_record _ _) fun _ => .pure _) (.pure _)

theorem relative_reportErrors (dropped : Nat) :
    (reportErrors dropped : Run (Engine σ) Nat).Relative T :=
  .bind (relative_onDevice T.takeErrors) fun _ =>
    .ite (.bind (relative_record _ _) fun _ => .pure _) (.pure _)

theorem relative_drain (warn : Bool) : (drain warn : Run (Engine σ) Nat).Relative T := by
  rw [drain_eq]
  refine .bind relative_backlog fun _ =>
    .bind (.loop (relative_drainRound warn) _ _) fun dropped => ?_
  refine .bind (.modify (fun _ _ => rfl) fun _ => rfl) fun _ => .ite ?_ (relative_reportErrors _)
  exact .bind (relative_record _ _) fun _ => relative_reportErrors _

theorem relative_transmitLine (line : String) :
    (transmitLine line : Attempt (Engine σ) Unit).Relative T :=
  .bind (.liftResult _) fun _ => .bind (.liftResult _) fun _ => relative_transmit _

theorem relative_issue (line : String) : (issue line : Attempt (Engine σ) Unit).Relative T :=
  .bind (.lift (relative_drain true)) fun _ => .bind (.lift (relative_record _ _)) fun _ =>
    .bind (.liftResult _) fun _ => relative_transmit _

theorem relative_request (pieces : List String) (timeout : UInt32) :
    (request pieces timeout : Attempt (Engine σ) Tag).Relative T := by
  unfold request
  refine .bind (.liftResult _) fun _ => .bind (relative_issue _) fun _ =>
    .bind (.lift (relative_awaitTag _ _ _)) fun scan =>
      .bind (.lift (relative_record _ _)) fun _ => ?_
  cases scan with
  | matched t => exact .pure t
  | found => exact .throw _
  | timedOut => exact .throw _

theorem relative_requestOk (pieces : List String) (timeout : UInt32) :
    (requestOk pieces timeout : Attempt (Engine σ) Unit).Relative T := by
  unfold requestOk
  refine .bind (relative_request _ _) fun tag => ?_
  cases tag with
  | ok => exact .pure ()
  | _ => exact .throw _

theorem relative_readField (start stop : Bytes) (m : Nat) :
    (readField start stop m : Attempt (Engine σ) String).Relative T := by
  have fail : ∀ (level : Level) (message : String) (f : Fault), (do
      MonadLog.record level message
      throw f : Attempt (Engine σ) String).Relative T :=
    fun level message f => .bind (.lift (relative_record level message)) fun _ => .throw f
  unfold readField
  refine .get_bind (fun _ _ => rfl) fun e => .bind (.lift (relative_awaitTag _ _ _)) fun scan => ?_
  cases scan with
  | matched t => exact fail _ _ _
  | timedOut => exact fail _ _ _
  | found =>
    refine .bind (.lift (relative_awaitTag _ _ _)) fun scan => ?_
    cases scan with
    | matched t => exact fail _ _ _
    | timedOut => exact fail _ _ _
    | found =>
      exact .get_bind (fun _ _ => rfl) fun _ => .bind (.lift (relative_awaitTag _ _ _)) fun _ =>
        .liftResult _

theorem relative_queryField (command : String) (start stop : Bytes) (m : Nat) :
    (queryField command start stop m : Attempt (Engine σ) String).Relative T :=
  .bind (.liftResult _) fun _ => .bind (relative_issue _) fun _ =>
    .bind (relative_readField _ _ _) fun _ => .bind (.lift (relative_record _ _)) fun _ => .pure _

/-! ### Numbers -/

theorem relative_skipToNumber (timeout : UInt32) :
    (skipToNumber timeout : Run (Engine σ) _).Relative T := by
  unfold skipToNumber
  refine .bind relative_backlog fun _ => .loop (fun _ => ?_) _ _
  refine .bind (relative_awaitPeek _) fun r => ?_
  cases r with
  | none => exact .pure _
  | some b => exact .ite (.pure _) (.bind (relative_onDevice T.read) fun _ => .pure _)

theorem relative_readNumeral (timeout : UInt32) (first : UInt8) :
    (readNumeral timeout first : Run (Engine σ) _).Relative T := by
  unfold readNumeral
  refine .bind relative_backlog fun _ => .loop (fun (n, b) => ?_) _ _
  dsimp only
  cases n.next b with
  | overflow => exact .pure _
  | stop => exact .pure _
  | take n =>
    refine .bind (relative_onDevice T.read) fun _ => .bind (relative_awaitPeek _) fun r => ?_
    cases r <;> exact .pure _

theorem relative_readInt : (readInt : Run (Engine σ) _).Relative T := by
  unfold readInt
  refine .bind relative_fieldTimeout fun timeout => .bind (relative_skipToNumber _) fun r => ?_
  cases r with
  | none => exact .pure _
  | some first => exact relative_readNumeral _ _

end Engine

end EspWifi
