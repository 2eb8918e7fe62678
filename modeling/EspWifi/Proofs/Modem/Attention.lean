import EspWifi.Proofs.At.Intake
import EspWifi.Proofs.Modem.Patience

/-!
# Looks for data that return

A look for data waits for the preamble of a header and then for each of its fields, and a read waits for
its byte and for the notice of a close behind it. Each of these waits is given up when its timeout has
passed. So looks and reads return on every clock that passes the timeouts, whatever has arrived by then.

* `Driver.Attentive`: the clock passes the timeouts of looks and reads.
* `Packet.returns_read`: a header is read, or given up.
* `Driver.Attentive.returns_available`, `Driver.Attentive.returns_receiveByte`: **looks and reads return.**
* `Driver.todo`: how often bytes can still be asked for; `Driver.wp_receiveByte_todo`: a read makes it less.
-/

namespace EspWifi

open Run

variable {α : Type}

namespace Engine

variable {e e' : Engine Bench} {c : Bytes} {timeout : UInt32}

theorem Takes.atPace (h : e.Takes e' c) : e.AtPace e' := ⟨h.timeouts, h.step⟩

theorem returns_skipPast_atPace {tag : Bytes} (h : e.device.Passes timeout) :
    Returns e.AtPace (skipPast tag timeout) :=
  returns_of_moves fun _ h₁ => wp_mono (returns_skipPast (h₁.passes h)) fun _ _ ⟨c, hc⟩ => ⟨c, [], hc⟩

theorem returns_awaitByte (h : e.device.Passes timeout) : Returns e.AtPace (awaitByte timeout) := by
  intro e₁ h₁
  refine wp_mono (wp_weaken wp_awaitByte_takes fun hnever => hnever (h₁.passes h)) ?_
  exact fun _ _ htakes => h₁.trans htakes.atPace

theorem returns_awaitPeek (h : e.device.Passes timeout) : Returns e.AtPace (awaitPeek timeout) := by
  intro e₁ h₁
  refine wp_mono (wp_weaken wp_awaitPeek_takes fun hnever => hnever (h₁.passes h)) ?_
  exact fun _ _ htakes => h₁.trans htakes.1.atPace

theorem returns_readInt (h : e.device.Passes e.timeouts.field) : Returns e.AtPace readInt := by
  intro e₁ h₁
  have hpasses : e₁.device.Passes e₁.timeouts.field := by
    rw [h₁.timeouts]
    exact h₁.passes h
  refine wp_mono (wp_weaken wp_readInt_takes fun hnever => hnever hpasses) ?_
  exact fun _ _ ⟨_, htakes, _⟩ => h₁.trans htakes.atPace

end Engine

namespace Packet

variable {e : Engine Bench}

/-- **A header is read, or given up**, if the clock passes the timeout of a field. -/
theorem returns_read (h : e.device.Passes e.timeouts.field) :
    Returns e.AtPace (read : OptionT (Run (Engine Bench)) Packet).run := by
  have byte : Returns e.AtPace (readByte : OptionT (Run (Engine Bench)) UInt8).run :=
    .option (Engine.returns_readInt h) fun _ => .pure _
  have word : Returns e.AtPace (readWord : OptionT (Run (Engine Bench)) UInt16).run :=
    .option (Engine.returns_readInt h) fun _ => .pure _
  have sender : Returns e.AtPace (readSender : OptionT (Run (Engine Bench)) (Ipv4 × UInt16)).run :=
    .option byte fun _ => .option byte fun _ => .option byte fun _ => .option byte fun _ =>
      .option word fun _ => .pure _
  have stop (p : Packet) : Returns e.AtPace (do
      let stop ← OptionT.mk (Engine.awaitByte e.timeouts.field)
      if stop = ascii ':' then return p else failure : OptionT (Run (Engine Bench)) Packet).run := by
    refine .option (Engine.returns_awaitByte h) fun b => ?_
    split
    · exact .pure _
    · exact .pure _
  intro e₁ h₁
  unfold read Engine.fieldTimeout
  rw [wp_run_bind, wp_run_lift, wp_bind, wp_get, wp_pure, h₁.timeouts]
  refine Returns.option byte (fun link => .option word fun remaining =>
    .option (Engine.returns_awaitPeek h) fun next => ?_) e₁ h₁
  split
  · exact .option sender fun _ => .option (.pure _) fun p => stop p
  · exact .option (.pure _) fun p => stop p

end Packet

namespace Driver

variable {d : Driver Bench}

/-- **The clock passes the waits of looks and reads**: the timeouts of a field, of a payload byte and of the
notice of a close, and the pause before a look for the notice. -/
structure Attentive (d : Driver Bench) : Prop where
  field : d.engine.device.Passes d.engine.timeouts.field
  data : d.engine.device.Passes d.engine.timeouts.data
  closed : d.engine.device.Passes d.engine.timeouts.closed
  pause : d.engine.device.Passes 5

theorem returns_forgetPacket : Returns d.AtPace (forgetPacket : Run (Driver Bench) Unit) :=
  .modify fun _ h => h

theorem returns_forgetStalePacket :
    Returns d.AtPace (forgetStalePacket : Run (Driver Bench) Unit) := by
  have counted : Returns d.engine.AtPace (Engine.takeDropped : Run (Engine Bench) Nat) :=
    fun _ h => ⟨h.timeouts, h.step⟩
  unfold forgetStalePacket
  refine .bind (returns_onEngine counted) fun dropped => .get_bind fun d₁ _ => ?_
  dsimp only
  split
  · exact .bind (returns_record _ _) fun _ => returns_forgetPacket
  · exact .pure _

theorem returns_giveUpPacket : Returns d.AtPace (giveUpPacket : Run (Driver Bench) Unit) :=
  .get_bind fun _ _ => .bind (returns_record _ _) fun _ => returns_forgetPacket

theorem returns_pending (link : Option UInt8) :
    Returns d.AtPace (pending link : Run (Driver Bench) UInt16) :=
  .get_bind fun _ _ => .pure _

/-- A look at the link takes no time. -/
theorem returns_onDevice {op : Run Bench α}
    (hop : ∀ b, wp False op (fun _ b' => b'.step = b.step) b) :
    Returns d.AtPace (onEngine (onDevice op)) := by
  refine returns_onEngine fun e₁ h₁ => ?_
  rw [wp_onDevice]
  exact wp_mono (hop e₁.device) fun _ _ hstep => h₁.trans ⟨rfl, hstep⟩

namespace Attentive

theorem returns_nextPacket (h : d.Attentive) :
    Returns d.AtPace (nextPacket : Run (Driver Bench) Bool) := by
  unfold nextPacket
  refine .bind (returns_onDevice Bench.pace.available) fun n => ?_
  split
  · exact .pure _
  refine returns_timeouts (.bind (returns_onEngine (Engine.returns_skipPast_atPace h.field)) fun found => ?_)
  split
  · refine .bind (returns_onEngine (Packet.returns_read h.field)) fun packet => ?_
    cases packet with
    | some p => exact .bind (returns_record _ _) fun _ => .bind (.modify fun _ h => h) fun _ => .pure _
    | none => exact .bind (returns_record _ _) fun _ => .bind returns_forgetPacket fun _ => .pure _
  · exact .pure _

/-- **A look for data returns.** -/
theorem returns_available (h : d.Attentive) (link : Option UInt8) :
    Returns d.AtPace (available link : Run (Driver Bench) UInt16) := by
  unfold available
  refine .bind returns_forgetStalePacket fun _ => .get_bind fun d₁ _ => ?_
  split
  · refine .bind h.returns_nextPacket fun found => ?_
    split
    · exact returns_pending link
    · exact .pure _
  · exact returns_pending link

theorem returns_sawClose (h : d.Attentive) (link : UInt8) :
    Returns d.AtPace (sawClose link : Run (Driver Bench) Bool) := by
  unfold sawClose delay
  refine .bind (returns_onEngine (Engine.returns_delay h.pause)) fun _ =>
    .bind (returns_onDevice Bench.pace.peek) fun next => ?_
  split
  · have skips : Returns d.AtPace
        (onEngine (Engine.skipPast (utf8 closedTrailer) d.engine.timeouts.closed)) :=
      returns_onEngine (Engine.returns_skipPast_atPace h.closed)
    refine returns_timeouts (.bind skips fun found => ?_)
    cases found with
    | true => exact .bind (returns_record _ _) fun _ => .pure _
    | false =>
      exact .bind (returns_record _ _) fun _ => .bind (returns_record _ _) fun _ => .pure _
  · exact .pure _

/-- **A read of a byte returns**, with the byte or with a fault. -/
theorem returns_receiveByte (h : d.Attentive) (link : UInt8) (peek : Bool) :
    Returns d.AtPace (receiveByte link peek : Attempt (Driver Bench) Received).run := by
  have waits : Returns d.AtPace (onEngine
      (if peek then Engine.awaitPeek d.engine.timeouts.data
        else Engine.awaitByte d.engine.timeouts.data)) := by
    cases peek with
    | true => exact returns_onEngine (Engine.returns_awaitPeek h.data)
    | false => exact returns_onEngine (Engine.returns_awaitByte h.data)
  have refused (f : Fault) : Returns d.AtPace (throw f : Attempt (Driver Bench) Received).run := .pure _
  unfold receiveByte
  refine .after returns_forgetStalePacket fun _ => .attempt_get fun d₁ _ => ?_
  dsimp only
  split
  · exact refused _
  refine returns_lift_timeouts (.after waits fun byte => ?_)
  cases byte with
  | none => exact .after returns_giveUpPacket fun _ => refused _
  | some byte =>
    cases peek with
    | true => exact .pure _
    | false =>
      refine .after (.modify fun _ h => h) fun _ => .attempt_get fun d₂ _ => ?_
      split
      · exact .after (h.returns_sawClose link) fun _ => .pure _
      · exact .pure _

end Attentive

/-! ### Reads come to an end -/

/-- **How often bytes can still be asked for**: once for each byte of the stream, and once more if a packet
is being read, as its payload may not arrive. -/
def todo (d : Driver Bench) : Nat :=
  d.engine.device.stream.length + if d.packet.isDrained then 0 else 1

theorem todo_le (d : Driver Bench) : d.todo ≤ d.engine.device.stream.length + 1 := by
  unfold todo
  split <;> omega

/-- A header that is read makes less to do, whatever packet it announces. -/
theorem wp_nextPacket_todo :
    wp True nextPacket (fun r d' => d'.engine.dropped = d.engine.dropped ∧
      (r = true → d'.todo ≤ d.engine.device.stream.length)) d := by
  refine wp_nextPacket_moves Bench.streamLedger fun r c d' h _ hread => ⟨h.dropped, fun hr => ?_⟩
  have hstream : d.engine.device.stream = c ++ d'.engine.device.stream := (h.device rfl).stream
  have hlength := congrArg List.length hstream
  rw [List.length_append] at hlength
  have hpos := List.length_pos_iff.2 (hread hr)
  have hle := d'.todo_le
  omega

/-- **Payload for `link` is unread.** -/
structure Unread (d : Driver Bench) (link : UInt8) : Prop where
  dropped : d.engine.dropped = 0
  undrained : d.packet.isDrained = false
  link : d.packet.link = link

/-- **A look that finds data has made nothing more to do.** -/
theorem wp_available_todo (link : UInt8) :
    wp True (available (some link)) (fun n d' => n ≠ 0 → d'.Unread link ∧ d'.todo ≤ d.todo) d := by
  have pending (d₁ : Driver Bench) (h0 : d₁.engine.dropped = 0) (hle : d₁.todo ≤ d.todo) :
      wp True (pending (some link)) (fun n d' => n ≠ 0 → d'.Unread link ∧ d'.todo ≤ d.todo) d₁ := by
    rw [wp_pending]
    split
    case isFalse => exact fun hn => absurd rfl hn
    case isTrue hown =>
      exact fun hn => ⟨⟨h0, beq_eq_false_iff_ne.2 hn, Packet.isFor_iff.1 hown⟩, hle⟩
  -- a packet that is drained makes way for the next one, if there is one
  have look (d₁ : Driver Bench) (h0 : d₁.engine.dropped = 0)
      (hstream : d₁.engine.device.stream.length ≤ d.todo) :
      wp True (do if ← nextPacket then Driver.pending (some link) else return 0)
        (fun n d' => n ≠ 0 → d'.Unread link ∧ d'.todo ≤ d.todo) d₁ := by
    rw [wp_bind]
    refine wp_mono wp_nextPacket_todo ?_
    rintro r d₂ ⟨hdropped, htodo⟩
    cases r with
    | true => exact pending d₂ (hdropped.trans h0) ((htodo rfl).trans hstream)
    | false => exact fun hn => absurd rfl hn
  have hle : d.engine.device.stream.length ≤ d.todo := Nat.le_add_right _ _
  unfold available
  rw [wp_bind]
  refine wp_forgetStalePacket Bench.streamLedger (fun h0 => ?_) fun d₁ _ hmoves h0 hdrained => ?_
  · rw [wp_bind, wp_get]
    split
    · exact look d h0 hle
    · exact pending d h0 (Nat.le_refl _)
  · have hstream : d.engine.device.stream = d₁.engine.device.stream := (hmoves rfl).stream
    rw [wp_bind, wp_get, if_pos hdrained]
    exact look d₁ h0 (hstream ▸ hle)

/-- **A read of what is unread makes less to do**: its byte is gone, or the packet is. -/
theorem wp_receiveByte_todo {link : UInt8} (h : d.Unread link) :
    wp True (receiveByte link false).run (fun _ d' => d'.todo < d.todo) d := by
  have htodo : d.todo = d.engine.device.stream.length + 1 := by
    rw [todo, h.undrained]
    rfl
  rw [Attempt.wp_run]
  refine wp_receiveByte_hands Bench.streamLedger (fun r d' _ hhands => ?_) fun f d' hhands hdone => ?_
  · obtain ⟨c, hmoves⟩ := hhands.moves
    have hlength := congrArg List.length (hmoves rfl).stream
    have hle := d'.todo_le
    simp only [Bool.false_eq_true, if_false, List.length_append, List.length_singleton] at hlength
    omega
  · obtain ⟨c, hmoves⟩ := hhands.moves
    have hlength := congrArg List.length (hmoves rfl).stream
    have hdrained : d'.packet.isDrained = true := hdone.resolve_left (not_not_intro h.link.symm)
    have htodo' : d'.todo = d'.engine.device.stream.length := by
      rw [todo, hdrained]
      rfl
    simp only [List.length_append] at hlength
    omega

end Driver

end EspWifi
