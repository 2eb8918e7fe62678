import EspWifi.Modem.Traffic
import EspWifi.Proofs.At.Recorded

/-!
# Inbound data and the record

Looking for packets and reading their payload adds nothing to the record of the link but the bytes that
were read.

* `Recorder.keeps_readPacket`: headers.
* `Recorder.keeps_packetAvailable`, `Recorder.keeps_receive`: packets and their payload.
-/

namespace EspWifi.Recorder

open Run LinkEvent

variable {σ α : Type} [Device σ] [Pins σ] {P : LinkEvent → Prop}

theorem keeps_onEngine {m : Run (Engine (Recorder σ)) α} (h : Keeps (Adds P) m) :
    Keeps (Adds P) (onEngine m) := h.focus fun _ _ h => h

theorem keeps_driverLog (level : Level) (message : String) :
    Keeps (Adds P) (MonadLog.record level message : Run (Driver (Recorder σ)) Unit) :=
  keeps_onEngine (keeps_log level message)

theorem keeps_timeouts : Keeps (Adds P) (Driver.timeouts : Run (Driver (Recorder σ)) Timeouts) :=
  .bind .get fun _ => .pure _

theorem keeps_pause (hP : ∀ ms, P (paused ms)) (ms : UInt32) :
    Keeps (Adds P) (Driver.delay ms : Run (Driver (Recorder σ)) Unit) :=
  keeps_onEngine (keeps_onDevice (keeps_delay hP ms))

theorem keeps_forgetPacket : Keeps (Adds P) (Driver.forgetPacket : Run (Driver (Recorder σ)) Unit) :=
  keeps_modify fun _ => ⟨rfl, rfl⟩

theorem keeps_forgetStalePacket :
    Keeps (Adds P) (Driver.forgetStalePacket : Run (Driver (Recorder σ)) Unit) :=
  .bind (keeps_onEngine keeps_takeDropped) fun _ => .bind .get fun _ =>
    .ite (.bind (keeps_driverLog _ _) fun _ => keeps_forgetPacket) (.pure _)

theorem keeps_pending (link : Option UInt8) :
    Keeps (Adds P) (Driver.pending link : Run (Driver (Recorder σ)) UInt16) :=
  .bind .get fun _ => .pure _

theorem keeps_giveUpPacket : Keeps (Adds P) (Driver.giveUpPacket : Run (Driver (Recorder σ)) Unit) :=
  .bind .get fun _ => .bind (keeps_driverLog _ _) fun _ => keeps_forgetPacket

theorem keeps_countByte : Keeps (Adds P) (Driver.countByte : Run (Driver (Recorder σ)) Unit) :=
  keeps_modify fun _ => ⟨rfl, rfl⟩

variable (hP : ∀ b, P (heard b))

include hP

theorem keeps_readByte : Keeps (Adds P) (Packet.readByte : OptionT (Run (Engine (Recorder σ))) _).run :=
  .optionBind (keeps_readInt hP) fun _ => .pure _

theorem keeps_readWord : Keeps (Adds P) (Packet.readWord : OptionT (Run (Engine (Recorder σ))) _).run :=
  .optionBind (keeps_readInt hP) fun _ => .pure _

theorem keeps_readSender :
    Keeps (Adds P) (Packet.readSender : OptionT (Run (Engine (Recorder σ))) _).run :=
  .optionBind (keeps_readByte hP) fun _ => .optionBind (keeps_readByte hP) fun _ =>
    .optionBind (keeps_readByte hP) fun _ => .optionBind (keeps_readByte hP) fun _ =>
      .optionBind (keeps_readWord hP) fun _ => .optionPure _

theorem keeps_readPacket :
    Keeps (Adds P) (Packet.read : OptionT (Run (Engine (Recorder σ))) _).run := by
  unfold Packet.read
  refine .optionBind ?_ fun timeout => .optionBind (keeps_readByte hP) fun link =>
    .optionBind (keeps_readWord hP) fun remaining =>
      .optionBind (keeps_awaitPeek _) fun next => ?_
  · rw [OptionT.run_lift]
    exact .bind (.bind .get fun _ => .pure _) fun _ => .pure _
  have stop (packet : Packet) : Keeps (Adds P) (do
      let stop ← OptionT.mk (Engine.awaitByte timeout)
      if stop = ascii ':' then return packet else failure :
        OptionT (Run (Engine (Recorder σ))) Packet).run := by
    refine .optionBind (keeps_awaitByte hP _) fun stop => ?_
    split
    · exact .optionPure _
    · exact .failure
  split
  · exact .optionBind (keeps_readSender hP) fun _ => .optionBind (.optionPure _) stop
  · exact .optionBind (.optionPure _) stop

theorem keeps_nextPacket : Keeps (Adds P) (Driver.nextPacket : Run (Driver (Recorder σ)) Bool) := by
  refine .bind (keeps_onEngine (keeps_onDevice keeps_available)) fun _ => .ite (.pure _) ?_
  refine .bind keeps_timeouts fun _ =>
    .bind (keeps_onEngine (keeps_skipPast hP _ _)) fun _ => .ite ?_ (.pure _)
  refine .bind (keeps_onEngine (keeps_readPacket hP)) fun packet => ?_
  cases packet with
  | some packet =>
    exact .bind (keeps_driverLog _ _) fun _ => .bind (keeps_modify fun _ => ⟨rfl, rfl⟩) fun _ =>
      .pure _
  | none => exact .bind (keeps_driverLog _ _) fun _ => .bind keeps_forgetPacket fun _ => .pure _

theorem keeps_packetAvailable (link : Option UInt8) :
    Keeps (Adds P) (Driver.available link : Run (Driver (Recorder σ)) UInt16) :=
  .bind keeps_forgetStalePacket fun _ => .bind .get fun _ => .ite
    (.bind (keeps_nextPacket hP) fun _ => .ite (keeps_pending _) (.pure _)) (keeps_pending _)

theorem keeps_readPayload (timeout : UInt32) (n : Nat) :
    Attempt.Keeps (Adds P)
      (Driver.readPayload timeout n : Attempt (Driver (Recorder σ)) Bytes) := by
  induction n with
  | zero => exact .pure _
  | succ n ih =>
    refine .bind (.lift (keeps_onEngine (keeps_awaitByte hP _))) fun byte => ?_
    cases byte with
    | none => exact .bind (.lift keeps_giveUpPacket) fun _ => .throw _
    | some byte => exact .bind (.lift keeps_countByte) fun _ => .bind ih fun _ => .pure _

theorem keeps_receive (link : UInt8) (n : Nat) :
    Attempt.Keeps (Adds P) (Driver.receive link n : Attempt (Driver (Recorder σ)) Bytes) :=
  .bind (.lift keeps_forgetStalePacket) fun _ => .bind (.lift .get) fun _ =>
    .ite (.throw _) (.bind (.lift keeps_timeouts) fun _ => keeps_readPayload hP _ _)

end EspWifi.Recorder
