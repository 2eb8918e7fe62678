import EspWifi.Proofs.At.Commands
import EspWifi.Proofs.At.Lines
import EspWifi.Proofs.Link.Queued
import EspWifi.Session.Action
import Mathlib.Algebra.GroupWithZero.Nat

/-!
# Stale input

A command throws away what waits before it is sent, and its scans forget the window they find. So what
was received before has no part in its answer.

* `QueuedLink.wp_drain`: **a drain leaves nothing behind**, and goes unnoticed.
* `QueuedLink.Stale`, `QueuedLink.Drained`: engines that differ in stale input, and engines that do no
  longer.
* `Command.perform_stale`: **a command is answered alike**, whatever waited before it.
-/

namespace EspWifi

open Run

variable {σ α : Type}

/-! ### Commands that fit into a line -/

theorem utf8ByteSize_join (pieces : List String) :
    (String.join pieces).utf8ByteSize = (pieces.map String.utf8ByteSize).sum := by
  induction pieces with
  | nil => rfl
  | cons piece pieces ih =>
    rw [String.join_cons, String.utf8ByteSize_append, ih, List.map_cons, List.sum_cons]

/-- **A command that is no longer than a command may be has a line.** -/
theorem commandLine_fits {pieces : List String}
    (h : (pieces.map String.utf8ByteSize).sum ≤ commandLimit) :
    ∃ line, commandLine pieces = .ok line := by
  rw [← utf8ByteSize_join] at h
  exact ⟨String.join pieces, (commandLine_eq pieces).trans (if_pos h)⟩

namespace Command

/-- The text of a command, in pieces. -/
def pieces : Command → List String
  | request pieces _ => pieces
  | requestOk pieces _ => pieces
  | queryField command _ _ _ => [command]

/-- The length of a command in bytes. -/
def length (cmd : Command) : Nat := (cmd.pieces.map String.utf8ByteSize).sum

/-- Carry out a command, with its answer. -/
def perform [Device σ] : Command → Run (Engine σ) Reply
  | request pieces timeout => do
    return .ofExcept .tag (← (Engine.request pieces timeout).run)
  | requestOk pieces timeout => do
    return .ofOutcome (← (Engine.requestOk pieces timeout).run)
  | queryField command start stop m => do
    return .ofExcept .text (← (Engine.queryField command start stop m).run)

end Command

namespace QueuedLink

variable [Device σ] (L : QueuedLink σ)

/-- **Engines that differ in stale input**: in what waits, in the window and in the count of bytes that
were thrown away. -/
structure Stale (e e' : Engine σ) : Prop where
  device : L.Alike e.device e'.device
  timeouts : e'.timeouts = e.timeouts

/-- Engines that differ in the window and in the count of bytes that were thrown away. -/
def Drained : Engine σ → Engine σ → Prop :=
  Engine.Twin L.twins (fun _ _ => True) (fun _ _ => True)

variable {L}

theorem Stale.trans {e e' e'' : Engine σ} (h : L.Stale e e') (h' : L.Stale e' e'') :
    L.Stale e e'' :=
  ⟨L.equivalence.trans h.device h'.device, h'.timeouts.trans h.timeouts⟩

theorem Stale.symm {e e' : Engine σ} (h : L.Stale e e') : L.Stale e' e :=
  ⟨L.equivalence.symm h.device, h.timeouts.symm⟩

variable (L)

/-- Something of the device that goes unnoticed. -/
theorem wp_unnoticed {m : Run σ α} {e : Engine σ}
    (hm : ∀ d, wp False m (fun _ d' => L.Alike d d' ∧ L.waiting d' = L.waiting d) d)
    {Q : α → Engine σ → Prop}
    (hQ : ∀ a e', L.Stale e e' → L.waiting e'.device = L.waiting e.device → Q a e') :
    wp False (onDevice m) Q e := by
  rw [wp_onDevice]
  exact wp_mono (hm _) fun a d hd => hQ a _ ⟨hd.1, rfl⟩ hd.2

theorem wp_record {level : Level} {message : String} {e : Engine σ} {Q : Unit → Engine σ → Prop}
    (hQ : ∀ e', L.Stale e e' → L.waiting e'.device = L.waiting e.device → Q () e') :
    wp False (MonadLog.record level message) Q e :=
  L.wp_unnoticed (L.record level message) fun _ => hQ

/-- A round of a drain takes a byte from what waits, or nothing waits after it. -/
theorem wp_drainRound {warn : Bool} {n : Nat} {e : Engine σ} {Q : Round Nat Nat → Engine σ → Prop}
    (stop : ∀ e', L.Stale e e' → L.waiting e'.device = [] → Q (.finish n) e')
    (next : ∀ e', L.Stale e e' → (L.waiting e'.device).length < (L.waiting e.device).length →
      Q (.again (n + 1)) e') :
    wp False (Engine.drainRound warn n) Q e := by
  unfold Engine.drainRound
  rw [wp_bind, wp_onDevice]
  refine wp_mono (L.available _) ?_
  rintro k d ⟨hd, hwaiting, hnone⟩
  rw [wp_ite]
  split
  · rename_i hk
    exact stop _ ⟨hd, rfl⟩ (hwaiting.trans (hnone hk))
  rw [wp_bind, wp_onDevice]
  refine wp_mono (L.read _) ?_
  rintro r d' ⟨hd', rfl, htail⟩
  have h : L.Stale e { e with device := d' } := ⟨L.equivalence.trans hd hd', rfl⟩
  cases hw : L.waiting d with
  | nil => exact stop _ h (by rw [htail, hw, List.tail_nil])
  | cons b rest =>
    have hlength : (L.waiting d').length < (L.waiting e.device).length := by
      rw [htail, ← hwaiting, hw, List.tail_cons, List.length_cons]
      omega
    dsimp only [List.head?_cons]
    rw [wp_ite]
    split
    · rw [wp_bind]
      refine L.wp_record fun e₁ h₁ hwaiting₁ => next e₁ (h.trans h₁) ?_
      rw [hwaiting₁]
      exact hlength
    · exact next _ h hlength

/-- That errors are noted in the log goes unnoticed. -/
theorem wp_reportErrors {n : Nat} {e : Engine σ} {Q : Nat → Engine σ → Prop}
    (hQ : ∀ e', L.Stale e e' → L.waiting e'.device = L.waiting e.device → Q n e') :
    wp False (Engine.reportErrors n) Q e := by
  unfold Engine.reportErrors
  rw [wp_bind]
  refine L.wp_unnoticed L.takeErrors fun errors e₁ h₁ hwaiting₁ => ?_
  rw [wp_ite]
  split
  · rw [wp_bind]
    exact L.wp_record fun e₂ h₂ hwaiting₂ => hQ e₂ (h₁.trans h₂) (hwaiting₂.trans hwaiting₁)
  · exact hQ e₁ h₁ hwaiting₁

/-- **A drain leaves nothing behind**, and goes unnoticed. -/
theorem wp_drain {warn : Bool} {e : Engine σ} {Q : Nat → Engine σ → Prop}
    (hQ : ∀ n e', L.Stale e e' → L.waiting e'.device = [] → Q n e') :
    wp False (Engine.drain warn) Q e := by
  rw [Engine.drain_eq]
  unfold Engine.backlog
  simp only [wp_bind, wp_get, wp_pure]
  -- less waits than there are rounds left, as each round takes a byte
  refine wp_mono (wp_loop (I := fun n _ e' => L.Stale e e' ∧ (L.waiting e'.device).length < n)
    (D := fun _ e' => L.Stale e e' ∧ L.waiting e'.device = []) ?_ ?_ _ _ _
    ⟨⟨L.equivalence.refl _, rfl⟩, Nat.lt_succ_of_le (L.length_waiting_le _)⟩) ?_
  · rintro _ _ ⟨-, hlt⟩
    exact Nat.not_lt_zero _ hlt
  · rintro n dropped e₁ ⟨h₁, hlt⟩
    refine L.wp_drainRound (fun e₂ h₂ hempty => ⟨h₁.trans h₂, hempty⟩) fun e₂ h₂ hless => ?_
    exact ⟨h₁.trans h₂, by omega⟩
  · rintro n e₁ ⟨h₁, hempty⟩
    rw [wp_modify]
    have h₂ : L.Stale e { e₁ with dropped := e₁.dropped + n } := ⟨h₁.device, h₁.timeouts⟩
    rw [wp_ite]
    split
    · rw [wp_bind]
      refine L.wp_record fun e₃ h₃ hwaiting₃ => L.wp_reportErrors fun e₄ h₄ hwaiting₄ => ?_
      exact hQ n e₄ ((h₂.trans h₃).trans h₄) (by rw [hwaiting₄, hwaiting₃, hempty])
    · exact L.wp_reportErrors fun e₃ h₃ hwaiting₃ =>
        hQ n e₃ (h₂.trans h₃) (hwaiting₃.trans hempty)

variable {L}

/-- **After a drain stale input makes no difference.** -/
theorem lockstep_drain_bind {R : Engine σ → Engine σ → Prop} {f : Run (Engine σ) α} {warn : Bool}
    (hf : Lockstep L.Drained R f f) :
    Lockstep L.Stale R (Engine.drain warn >>= fun _ => f) (Engine.drain warn >>= fun _ => f) := by
  intro e e' h
  refine both_left (L.wp_drain fun _ e₁ h₁ hempty => ?_)
  refine both_right (L.wp_drain fun _ e₁' h₁' hempty' => ?_)
  have h₂ := (h₁.symm.trans h).trans h₁'
  exact hf _ _ ⟨⟨h₂.device, hempty.trans hempty'.symm⟩, trivial, h₂.timeouts, trivial⟩

theorem blind_record (level : Level) (message : String) :
    Blind L.Drained (MonadLog.record level message) := Engine.blind_record level message

/-- The windows are the same after a scan. -/
theorem lockstep_awaitTag (timeout : UInt32) (tag : Option Bytes) (known : Bool) :
    Lockstep L.Drained (Engine.Twin L.twins Eq fun _ _ => True)
      (Engine.awaitTag timeout tag known) (Engine.awaitTag timeout tag known) :=
  Engine.lockstep_awaitTag timeout tag known

/-- Windows that are the same need not be told apart. -/
theorem drained_of_scanned {e e' : Engine σ}
    (h : Engine.Twin L.twins Eq (fun _ _ => True) e e') : L.Drained e e' :=
  ⟨h.device, trivial, h.timeouts, trivial⟩

theorem blind_awaitTag (timeout : UInt32) (tag : Option Bytes) (known : Bool) :
    Blind L.Drained (Engine.awaitTag timeout tag known) :=
  (lockstep_awaitTag timeout tag known).weaken (fun _ _ h => h) fun _ _ => drained_of_scanned

/-- **A command goes out alike**, whatever waited before it. -/
theorem lockstep_issue (line : String) :
    Attempt.Lockstep L.Stale L.Drained (Engine.issue line) (Engine.issue line) := by
  unfold Engine.issue
  show Lockstep L.Stale L.Drained (lift (Engine.drain true) >>= _).run _
  rw [lift, ExceptT.run_bind_lift]
  refine lockstep_drain_bind ?_
  show Attempt.Lockstep L.Drained L.Drained _ _
  exact .bind (.lift (blind_record _ _)) fun _ => .bind (.liftResult _) fun _ =>
    Engine.blind_transmit _

/-- A failure that is noted in the log. -/
theorem blind_fail (level : Level) (message : String) (f : Fault) :
    Attempt.Blind L.Drained (do
      MonadLog.record level message
      throw f : Attempt (Engine σ) α) :=
  .bind (.lift (blind_record level message)) fun _ => .throw f

/-- **A field is read alike.** It is cut out of a window that the scan before it has filled. -/
theorem blind_readField (start stop : Bytes) (m : Nat) :
    Attempt.Blind L.Drained (Engine.readField start stop m) := by
  unfold Engine.readField
  refine .get_bind fun e e' he => ?_
  rw [he.timeouts]
  refine .bind (.lift (blind_awaitTag _ _ _)) fun scan => ?_
  cases scan with
  | matched t => exact blind_fail _ _ _
  | timedOut => exact blind_fail _ _ _
  | found =>
    refine .bind_of (.lift (lockstep_awaitTag _ _ _)) (fun scan => ?_) fun _ _ => drained_of_scanned
    cases scan with
    | matched t => exact (blind_fail _ _ _).from_weaker fun _ _ => drained_of_scanned
    | timedOut => exact (blind_fail _ _ _).from_weaker fun _ _ => drained_of_scanned
    | found =>
      refine .get_bind fun e₁ e₁' h₁ => ?_
      rw [h₁.window]
      refine .from_weaker (R := L.Drained) ?_ fun _ _ => drained_of_scanned
      exact .bind (.lift (blind_awaitTag _ _ _)) fun _ => .liftResult _

omit [Device σ] in
/-- What is made of the line of a command that has one. -/
theorem lockstep_line {R R' : Engine σ → Engine σ → Prop} {pieces : List String}
    {f : String → Attempt (Engine σ) α} (h : (pieces.map String.utf8ByteSize).sum ≤ commandLimit)
    (hf : ∀ line, Attempt.Lockstep R R' (f line) (f line)) :
    Attempt.Lockstep R R' (liftResult (commandLine pieces) >>= f)
      (liftResult (commandLine pieces) >>= f) := by
  obtain ⟨line, hline⟩ := commandLine_fits h
  rw [hline]
  exact hf line

theorem lockstep_request {pieces : List String} {timeout : UInt32}
    (h : (pieces.map String.utf8ByteSize).sum ≤ commandLimit) :
    Attempt.Lockstep L.Stale L.Drained (Engine.request pieces timeout)
      (Engine.request pieces timeout) := by
  unfold Engine.request
  refine lockstep_line h fun line => ?_
  refine .bind (lockstep_issue line) fun _ => .bind (.lift (blind_awaitTag _ _ _)) fun scan => ?_
  refine .bind (.lift (blind_record _ _)) fun _ => ?_
  cases scan with
  | matched t => exact .pure t
  | found => exact .throw _
  | timedOut => exact .throw _

theorem lockstep_requestOk {pieces : List String} {timeout : UInt32}
    (h : (pieces.map String.utf8ByteSize).sum ≤ commandLimit) :
    Attempt.Lockstep L.Stale L.Drained (Engine.requestOk pieces timeout)
      (Engine.requestOk pieces timeout) := by
  unfold Engine.requestOk
  refine .bind (lockstep_request h) fun tag => ?_
  cases tag with
  | ok => exact .pure ()
  | _ => exact .throw _

theorem lockstep_queryField {command : String} {start stop : Bytes} {m : Nat}
    (h : command.utf8ByteSize ≤ commandLimit) :
    Attempt.Lockstep L.Stale L.Drained (Engine.queryField command start stop m)
      (Engine.queryField command start stop m) := by
  unfold Engine.queryField
  refine lockstep_line (by simpa using h) fun line => ?_
  refine .bind (lockstep_issue line) fun _ => .bind (blind_readField _ _ _) fun text => ?_
  exact .bind (.lift (blind_record _ _)) fun _ => .pure text

end QueuedLink

open QueuedLink in
/-- **Stale input cannot answer a command.** Two engines agree on the clock, on what is still to arrive,
on the transmitter and on the timeouts; what waits, the windows and the counts of bytes that were
thrown away are arbitrary. Then a command that is no longer than a command may be gets the same
answer from both, and leaves them with the same bytes sent, the same clock and the same bytes waiting,
again in agreement on all the rest. If its run on one is cut short, so is its run on the other, for
the same reason. -/
theorem Command.perform_stale [Device σ] (L : QueuedLink σ) {e e' : Engine σ} {cmd : Command}
    (hlength : cmd.length ≤ commandLimit) (halike : L.Alike e.device e'.device)
    (htimeouts : e'.timeouts = e.timeouts) :
    (∀ r e₁, cmd.perform e = .ok r e₁ → ∃ e₁', cmd.perform e' = .ok r e₁' ∧
      L.sent e₁'.device = L.sent e₁.device ∧ L.clock e₁'.device = L.clock e₁.device ∧
      L.waiting e₁'.device = L.waiting e₁.device ∧ L.Alike e₁.device e₁'.device) ∧
    ∀ halt e₁, cmd.perform e = .error halt e₁ → ∃ e₁', cmd.perform e' = .error halt e₁' := by
  have hcmd : Lockstep L.Stale L.Drained cmd.perform cmd.perform := by
    cases cmd with
    | request pieces timeout => exact .bind (lockstep_request hlength) fun r => .pure _
    | requestOk pieces timeout => exact .bind (lockstep_requestOk hlength) fun r => .pure _
    | queryField command start stop m =>
      have hcommand : command.utf8ByteSize ≤ commandLimit := hlength
      exact .bind (lockstep_queryField hcommand) fun r => .pure _
  have hboth := hcmd e e' ⟨halike, htimeouts⟩
  refine ⟨fun r e₁ hrun => ?_, fun halt e₁ hrun => both_of_error hboth hrun⟩
  obtain ⟨_, e₁', hrun', rfl, ⟨hdevice, hwaiting⟩, -, -, -⟩ := both_of_ok hboth hrun
  exact ⟨e₁', hrun', (L.sent_eq hdevice).symm, (L.clock_eq hdevice).symm, hwaiting.symm, hdevice⟩

/-- An engine on which an answer waits before there was a question. -/
def staleOk : Engine Bench where
  device := { rx := utf8 "\r\nOK\r\n" }
  window := .last (utf8 "OK")
  dropped := 7

theorem stale_ok_unheard : ∃ e e', (Command.requestOk ["AT"] 10).perform staleOk =
      .ok (.fault .timeout) e ∧
    (Command.requestOk ["AT"] 10).perform ({ device := {} } : Engine Bench) =
      .ok (.fault .timeout) e' ∧
    e'.device.sent = e.device.sent ∧ e'.device.now = e.device.now ∧
    e'.device.queue = e.device.queue := by
  obtain ⟨e, he⟩ : ∃ e, (Engine.requestOk ["AT"] 10).run staleOk = .ok (.error .timeout) e :=
    value?_eq_some.1 (by decide +kernel)
  have hstale : (Command.requestOk ["AT"] 10).perform staleOk = .ok (.fault .timeout) e := by
    simp only [Command.perform, bind, EStateM.bind, he]
    rfl
  have halike : Bench.queuedLink.Alike staleOk.device ({} : Bench) := by
    show staleOk.device.outline = ({} : Bench).outline
    rw [Bench.outline_eq, Bench.outline_eq]
    rfl
  obtain ⟨hsame, -⟩ := @Command.perform_stale Bench _ Bench.queuedLink staleOk { device := {} }
    (.requestOk ["AT"] 10) (by decide) halike rfl
  obtain ⟨e', hfresh, hsent, hclock, hwaiting, -⟩ := hsame _ e hstale
  exact ⟨e, e', hstale, hfresh, hsent, hclock, hwaiting⟩

end EspWifi
