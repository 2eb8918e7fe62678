import EspWifi.Proofs.At.StaleInput
import EspWifi.Proofs.Session.Unblocked

/-!
# Lines go out whole

A line that is too long is refused before anything else is done. Every other line goes out whole, unless
the transmitter still turns down what is left of it when the time for sending is over.

* `Attempt.Delivers`: programs that send a line and then only listen.
* `LineOperation.perform_whole`: **an operation that sends a line sends all of it, or nothing**.
* `LineOperation.longPing_part`: it is not enough that the transmitter never stays blocked.
-/

namespace EspWifi

open Run

variable {σ α β : Type} [Device σ]

/-! ### Programs that send a line -/

section

variable {L : Ledger σ} {held : Engine σ → Prop} {text : String}

/-- A program that sends nothing. If it fails, it is not for the length of a command. -/
def Attempt.Listens (L : Ledger σ) (x : Attempt (Engine σ) α) : Prop :=
  Attempt.Sends L x fun r w => r ≠ .error .commandTooLong ∧ w = []

/-- **What was sent of a line**: a beginning of it, and all of it unless it was held up. -/
structure Engine.Delivered (L : Ledger σ) (held : Engine σ → Prop) (text : String) (e e' : Engine σ)
    (w : Bytes) : Prop where
  sent : L.Sent e e' w
  part : w <+: lineBytes text
  whole : ¬ held e → w = lineBytes text

/-- **A program that sends a line and then only listens.** All of the line was sent if it returns a value;
if it fails, a part may be missing where the line was held up. -/
def Attempt.Delivers (L : Ledger σ) (held : Engine σ → Prop) (text : String)
    (x : Attempt (Engine σ) α) : Prop :=
  ∀ e, Attempt.wp True x (fun _ e' => L.Sent e e' (lineBytes text))
    (fun f e' => f ≠ .commandTooLong ∧ ∃ w, e.Delivered L held text e' w) e

theorem Engine.Delivered.of_sent {e e' : Engine σ} (h : L.Sent e e' (lineBytes text)) :
    e.Delivered L held text e' (lineBytes text) :=
  ⟨h, List.prefix_refl _, fun _ => rfl⟩

namespace Attempt

namespace Listens

theorem pure (a : α) : Listens L (pure a : Attempt (Engine σ) α) := Sends.pure ⟨by simp, rfl⟩

theorem throw {f : Fault} (hf : f ≠ .commandTooLong) :
    Listens L (throw f : Attempt (Engine σ) α) := Sends.throw ⟨by simpa using hf, rfl⟩

theorem liftResult {r : Except Fault α} (hr : r ≠ .error .commandTooLong) :
    Listens L (EspWifi.liftResult r : Attempt (Engine σ) α) := Run.Sends.pure ⟨hr, rfl⟩

theorem after {m : Run (Engine σ) β} {f : β → Attempt (Engine σ) α} (h : m.Quiet L)
    (hf : ∀ b, Listens L (f b)) : Listens L (EspWifi.lift m >>= f) :=
  Sends.after h hf

theorem bind {x : Attempt (Engine σ) β} {f : β → Attempt (Engine σ) α} (h : Listens L x)
    (hf : ∀ b, Listens L (f b)) : Listens L (x >>= f) := by
  refine Sends.bind h ?_ ?_
  · rintro b _ ⟨-, rfl⟩
    exact hf b
  · rintro f _ ⟨hf, rfl⟩
    exact ⟨by simpa using hf, rfl⟩

/-- A failure that is noted in the log. -/
theorem logThrow {level : Level} {message : String} {f : Fault} (hf : f ≠ .commandTooLong) :
    Listens L (do MonadLog.record level message; MonadExcept.throw f : Attempt (Engine σ) α) :=
  after (Engine.quiet_record _ _) fun _ => throw hf

end Listens

/-- **What comes after a line only listens.** -/
theorem Delivers.bind {x : Attempt (Engine σ) α} {f : α → Attempt (Engine σ) β}
    (h : Delivers L held text x) (hf : ∀ a, Listens L (f a)) : Delivers L held text (x >>= f) := by
  intro e
  rw [wp_bind]
  refine wp_mono (h e) (fun a e₁ h₁ => ?_) fun _ _ h => h
  have sent {e₂ : Engine σ} {w : Bytes} (h₂ : L.Sent e₁ e₂ w) (hw : w = []) :
      L.Sent e e₂ (lineBytes text) := by
    have := h₁.trans h₂
    rwa [hw, List.append_nil] at this
  refine wp_mono (wp_run.1 (hf a e₁)) ?_ ?_
  · rintro b e₂ ⟨w, h₂, -, hw⟩
    exact sent h₂ hw
  · rintro f e₂ ⟨w, h₂, hf, hw⟩
    exact ⟨by simpa using hf, _, .of_sent (sent h₂ hw)⟩

end Attempt

namespace Engine

open Attempt

/-! ### Commands -/

/-- What is done before a command is sent. -/
def clear (line : String) : Run (Engine σ) Unit := do
  let _ ← drain true
  logDebug s!">> {line}"

theorem wp_clear (L : Ledger σ) (line : String) (e : Engine σ) :
    wp True (clear line) (fun _ e' => L.Sent e e' [] ∧ e'.timeouts = e.timeouts) e := by
  unfold clear
  rw [Run.wp_bind]
  refine L.wp_drain fun z _ e₁ h₁ ht _ => L.wp_record fun e₂ h₂ _ => ?_
  exact ⟨⟨_, L.trans h₁ h₂.device⟩, h₂.timeouts.trans ht⟩

theorem issue_eq {line : String} (h : line.utf8ByteSize ≤ commandLimit) :
    (issue line : Attempt (Engine σ) Unit) = (do lift (clear line); transmit (lineBytes line)) := by
  refine ExceptT.ext ?_
  unfold issue lift clear
  rw [endLine_eq h, ExceptT.run_bind_lift, ExceptT.run_bind_lift, bind_assoc]
  exact bind_congr fun _ => ExceptT.run_bind_lift _ _

/-- **The transmitter holds a line up** that is sent after `before`: what is left of the line is turned down
when the time for sending is over. That time runs from the first offer, whatever was taken since. -/
def HeldUp (before : Run (Engine σ) Unit) (line : String) (e : Engine σ) : Prop :=
  ∃ e₁, before e = .ok () e₁ ∧ Device.TooSlow e.timeouts.send e₁.device (lineBytes line)

theorem delivers_issue {line : String} (h : line.utf8ByteSize ≤ commandLimit) :
    Delivers L (HeldUp (clear line) line) line (issue line : Attempt (Engine σ) Unit) := by
  intro e
  rw [issue_eq h, Attempt.wp_bind, Attempt.wp_lift]
  refine wp_mono (wp_and_result (wp_clear L line e)) ?_
  rintro ⟨⟩ e₁ ⟨⟨h₁, ht⟩, hclear⟩
  refine L.wp_transmit_tooSlow (fun e₂ h₂ => ?_) fun w e₂ h₂ hw hslow => ?_
  · exact h₁.trans ⟨[], h₂.device⟩
  · refine ⟨by simp, w, h₁.trans ⟨[], h₂.device⟩, hw, fun hheld => ?_⟩
    rw [ht] at hslow
    exact absurd ⟨e₁, hclear, hslow⟩ hheld

theorem delivers_transmitLine {line : String}
    (h : (String.join [line]).utf8ByteSize ≤ commandLimit) :
    Delivers L (HeldUp (pure ()) (String.join [line])) (String.join [line])
      (transmitLine line : Attempt (Engine σ) Unit) := by
  rw [join_singleton] at h ⊢
  intro e
  rw [transmitLine_eq h]
  refine L.wp_transmit_tooSlow (fun e₁ h₁ => ⟨[], h₁.device⟩) fun w e₁ h₁ hw hslow => ?_
  exact ⟨by simp, w, ⟨[], h₁.device⟩, hw, fun hheld => absurd ⟨e, rfl, hslow⟩ hheld⟩

theorem delivers_request {pieces : List String} (timeout : UInt32)
    (h : (String.join pieces).utf8ByteSize ≤ commandLimit) :
    Delivers L (HeldUp (clear (String.join pieces)) (String.join pieces)) (String.join pieces)
      (request pieces timeout : Attempt (Engine σ) Tag) := by
  unfold request
  rw [commandLine_eq, if_pos h]
  refine (delivers_issue h).bind fun _ => .after (quiet_awaitTag _ _ _) fun scan =>
    .after (quiet_record _ _) fun _ => ?_
  cases scan with
  | matched t => exact .pure t
  | found => exact .throw (by simp)
  | timedOut => exact .throw (by simp)

theorem delivers_requestOk {pieces : List String} (timeout : UInt32)
    (h : (String.join pieces).utf8ByteSize ≤ commandLimit) :
    Delivers L (HeldUp (clear (String.join pieces)) (String.join pieces)) (String.join pieces)
      (requestOk pieces timeout : Attempt (Engine σ) Unit) := by
  refine (delivers_request timeout h).bind fun t => ?_
  cases t with
  | ok => exact .pure ()
  | _ => exact .throw (by simp)

/-- Reading a field only listens. -/
theorem listens_readField (start stop : Bytes) (m : Nat) :
    Listens L (readField start stop m : Attempt (Engine σ) String) := by
  have get : Quiet L (get : Run (Engine σ) (Engine σ)) := fun e => ⟨[], .refl e, rfl⟩
  unfold readField
  refine .after get fun e => .after (quiet_awaitTag _ _ _) fun scan => ?_
  cases scan with
  | matched t => exact .logThrow (by simp)
  | timedOut => exact .logThrow (by simp)
  | found =>
    refine .after (quiet_awaitTag _ _ _) fun scan => ?_
    cases scan with
    | matched t => exact .logThrow (by simp)
    | timedOut => exact .logThrow (by simp)
    | found =>
      refine .after get fun e => .after (quiet_awaitTag _ _ _) fun _ => .liftResult ?_
      unfold Window.extract
      split <;> simp

theorem delivers_queryField {command : String} (start stop : Bytes) (m : Nat)
    (h : (String.join [command]).utf8ByteSize ≤ commandLimit) :
    Delivers L (HeldUp (clear (String.join [command])) (String.join [command]))
      (String.join [command]) (queryField command start stop m : Attempt (Engine σ) String) := by
  unfold queryField
  rw [commandLine_eq, if_pos h]
  exact (delivers_issue h).bind fun _ => (listens_readField _ _ _).bind fun _ =>
    .after (quiet_record _ _) fun _ => .pure _

end Engine

/-- The answer to a program that sends a line. -/
theorem Attempt.Delivers.reply {x : Attempt (Engine σ) α} (h : Delivers L held text x)
    {answer : α → Reply} (hanswer : ∀ a, answer a ≠ .fault .commandTooLong) (e : Engine σ) :
    Run.wp True (do return Reply.ofExcept answer (← x.run) : Run (Engine σ) Reply) (fun r e' =>
      r ≠ .fault .commandTooLong ∧ ∃ w, e.Delivered L held text e' w) e := by
  rw [Run.wp_bind, wp_run]
  refine wp_mono (h e) (fun a e' he => ⟨hanswer a, _, .of_sent he⟩) ?_
  rintro f e' ⟨hf, w, hw⟩
  refine ⟨fun hfault => hf ?_, w, hw⟩
  injection hfault

end

/-! ### Operations that send a line -/

/-- An operation that sends one line: a command, or a line that is not answered. -/
inductive LineOperation where
  | command (cmd : Command)
  | line (text : String)

namespace LineOperation

open Engine

/-- The pieces that the line is formatted from. -/
def pieces : LineOperation → List String
  | command cmd => cmd.pieces
  | line text => [text]

/-- The text of the line. -/
def text (op : LineOperation) : String := String.join op.pieces

/-- Its length in bytes. -/
def length (op : LineOperation) : Nat := (op.pieces.map String.utf8ByteSize).sum

/-- Carry out an operation, with its answer. -/
def perform : LineOperation → Run (Engine σ) Reply
  | command cmd => cmd.perform
  | line text => do return .ofOutcome (← (transmitLine text).run)

/-- What is done before the line is sent: a command throws away what waits. -/
def prepare : LineOperation → Run (Engine σ) Unit
  | command cmd => clear (String.join cmd.pieces)
  | line _ => pure ()

/-- The transmitter holds the line of an operation up. -/
def HeldUp (op : LineOperation) : Engine σ → Prop := Engine.HeldUp op.prepare op.text

theorem length_eq (op : LineOperation) : op.length = op.text.utf8ByteSize :=
  (utf8ByteSize_join op.pieces).symm

omit [Device σ] in
/-- A program that is refused is answered so. -/
theorem reply_of_refused {x : Attempt (Engine σ) α} {answer : α → Reply} {e : Engine σ}
    (h : x.run e = .ok (.error .commandTooLong) e) :
    (do return Reply.ofExcept answer (← x.run) : Run (Engine σ) Reply) e =
      .ok (.fault .commandTooLong) e := by
  show EStateM.bind x.run _ e = _
  rw [EStateM.bind, h]
  rfl

/-- **A line that is too long is refused**, and nothing has been done. -/
theorem perform_of_long {op : LineOperation} (h : commandLimit < op.length) (e : Engine σ) :
    op.perform e = .ok (.fault .commandTooLong) e := by
  rw [length_eq] at h
  have refused : commandLine op.pieces = .error .commandTooLong := by
    rw [commandLine_eq]
    exact if_neg (Nat.not_le.2 h)
  cases op with
  | line text =>
    have hline : commandLine [text] = .error .commandTooLong := refused
    refine reply_of_refused ?_
    unfold transmitLine
    rw [hline]
    rfl
  | command cmd =>
    cases cmd with
    | request pieces timeout =>
      have hline : commandLine pieces = .error .commandTooLong := refused
      refine reply_of_refused ?_
      unfold request
      rw [hline]
      rfl
    | requestOk pieces timeout =>
      have hline : commandLine pieces = .error .commandTooLong := refused
      refine reply_of_refused ?_
      unfold requestOk request
      rw [hline]
      rfl
    | queryField command start stop m =>
      have hline : commandLine [command] = .error .commandTooLong := refused
      refine reply_of_refused ?_
      unfold queryField
      rw [hline]
      rfl

/-- **A line that is not too long is sent**, and all of it unless it is held up. -/
theorem wp_perform (L : Ledger σ) {op : LineOperation} (h : op.length ≤ commandLimit)
    (e : Engine σ) :
    wp True op.perform (fun r e' =>
      r ≠ .fault .commandTooLong ∧ ∃ w, e.Delivered L op.HeldUp op.text e' w) e := by
  rw [length_eq] at h
  cases op with
  | line text => exact (delivers_transmitLine h).reply (by simp) e
  | command cmd =>
    cases cmd with
    | request pieces timeout => exact (delivers_request timeout h).reply (by simp) e
    | requestOk pieces timeout => exact (delivers_requestOk timeout h).reply (by simp) e
    | queryField command start stop m => exact (delivers_queryField start stop m h).reply (by simp) e

/-- What was sent of a line that is not too long when the operation has returned. -/
theorem delivered_of_ok (L : Ledger σ) {op : LineOperation} (h : op.length ≤ commandLimit)
    {e e' : Engine σ} {r : Reply} (hrun : op.perform e = .ok r e') :
    r ≠ .fault .commandTooLong ∧ ∃ w, e.Delivered L op.HeldUp op.text e' w := by
  obtain ⟨hr, delivered⟩ := wp_of_ok (wp_perform L h e) hrun
  exact ⟨hr, delivered⟩

/-- **A line is sent whole or not at all.** If it is too long, the operation is refused and nothing has
happened to the engine or its device. If it is not, there is room for its end, the operation is not refused,
and what is sent is the line with its end, unless the transmitter holds it up. -/
theorem perform_whole (L : Ledger σ) (op : LineOperation) (e : Engine σ) :
    (commandLimit < op.length → op.perform e = .ok (.fault .commandTooLong) e) ∧
    (op.length ≤ commandLimit →
      endLine op.text = .ok (op.text ++ lineEnd) ∧
      ∀ r e', op.perform e = .ok r e' → r ≠ .fault .commandTooLong ∧
        ∃ w, L.Sent e e' w ∧ w <+: utf8 (op.text ++ lineEnd) ∧
          (¬ op.HeldUp e → w = utf8 (op.text ++ lineEnd))) := by
  refine ⟨fun h => perform_of_long h e, fun h => ⟨endLine_eq (by rwa [← length_eq]), ?_⟩⟩
  intro r e' hrun
  obtain ⟨hr, w, hw⟩ := delivered_of_ok L h hrun
  exact ⟨hr, w, hw.sent, hw.part, hw.whole⟩

/-- A ping of a host with a name of `n` characters. -/
def longPing (n : Nat) : LineOperation :=
  .command (.requestOk ["AT+PING=\"", String.ofList (List.replicate n 'h'), "\""] 8000)

/-- An engine whose module answers one command. -/
def answersOnce : Engine Bench := { device := { replies := [[(0, utf8 "\r\nOK\r\n")]] } }

theorem longPing_whole :
    (commandLimit < (longPing 191).length ∧
      (longPing 191).perform answersOnce = .ok (.fault .commandTooLong) answersOnce) ∧
    ((longPing 190).length ≤ commandLimit ∧ ¬ (longPing 190).HeldUp answersOnce ∧
      ∃ e', (longPing 190).perform answersOnce = .ok .ok e' ∧
        Bench.ledger.Sent answersOnce e' (utf8 ((longPing 190).text ++ lineEnd))) := by
  have hlong : commandLimit < (longPing 191).length := by decide +kernel
  have hfits : (longPing 190).length ≤ commandLimit := by decide +kernel
  have hfree : ¬ (longPing 190).HeldUp answersOnce := by
    rintro ⟨e₁, hprepare, hslow⟩
    have hidle : (longPing 190).prepare answersOnce = .ok () answersOnce := rfl
    rw [hidle] at hprepare
    cases hprepare
    exact Bench.Free.not_tooSlow ⟨rfl, rfl⟩ _ _ hslow
  obtain ⟨e', hrun⟩ : ∃ e', (longPing 190).perform answersOnce = .ok .ok e' := by
    have hok : value? (do return (← (longPing 190).perform) matches .ok) answersOnce = some true := by
      decide +kernel
    obtain ⟨r, e', hrun, hr⟩ := value?_bind_eq_some.1 hok
    cases r with
    | ok => exact ⟨e', hrun⟩
    | _ => cases hr
  obtain ⟨-, w, hsent, -, hw⟩ := ((perform_whole Bench.ledger _ _).2 hfits).2 _ _ hrun
  rw [hw hfree] at hsent
  exact ⟨⟨hlong, (perform_whole Bench.ledger _ _).1 hlong⟩, hfits, hfree, e', hrun, hsent⟩

/-- An engine with a slow transmitter. -/
def slowly : Engine Bench := { device := .slow [] }

/-- **A transmitter that never stays blocked may still be too slow for a line.** Of this one it takes four
bytes. -/
theorem longPing_part :
    NeverBlocked slowly.device ∧ slowly.timeouts = {} ∧ (longPing 190).length ≤ commandLimit ∧
      ∃ e', (longPing 190).perform slowly = .ok (.fault .timeout) e' ∧
        Bench.ledger.Sent slowly e' (utf8 "AT+P") ∧
        ¬ Bench.ledger.Sent slowly e' (utf8 ((longPing 190).text ++ lineEnd)) := by
  have yields : slowly.device.Yields 3 := ⟨by decide, rfl⟩
  have hfits : (longPing 190).length ≤ commandLimit := by decide +kernel
  have hpart : utf8 ((longPing 190).text ++ lineEnd) ≠ utf8 "AT+P" := by decide +kernel
  have hshown : shown? (longPing 190).perform (fun r e' => (r matches .fault .timeout, e'.device.sent))
      slowly = some (true, utf8 "AT+P") := by
    decide +kernel
  obtain ⟨r, e', hrun, hend⟩ := shown?_eq_some.1 hshown
  obtain ⟨hr, hsent⟩ := Prod.mk.inj hend
  have htimeout : r = .fault .timeout := by
    split at hr
    · rfl
    · cases hr
  subst htimeout
  have only {w : Bytes} (h : Bench.ledger.Sent slowly e' w) : w = utf8 "AT+P" := by
    obtain ⟨c, -, hw⟩ := h
    exact hw.symm.trans hsent
  obtain ⟨-, w, hw⟩ := delivered_of_ok Bench.ledger hfits hrun
  refine ⟨yields.neverBlocked (by decide), rfl, hfits, e', hrun, ?_, fun h => hpart (only h)⟩
  rw [← only hw.sent]
  exact hw.sent

end LineOperation

end EspWifi
