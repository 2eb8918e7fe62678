import EspWifi.Proofs.At.Lines
import EspWifi.Proofs.At.Recorded
import EspWifi.Proofs.Link.Conversation

/-!
# Commands in a conversation

A command of the engine that is due in a conversation is sent whole, unless it is cut short, and then the
engine waits for an answer. What the engine makes of the bytes that it hears is what they say.

* `Tag.Answers`: **the tag that answers a command** is the first one in what is heard.
* `Conversation.ends_transmit`, `Conversation.ends_issue`: what is due is sent.
* `Conversation.ends_request`, `Conversation.ends_requestOk`, `Conversation.ends_queryField`: commands.
* `Conversation.ends_pause`: a pause after a question decides that there was no answer.
-/

namespace EspWifi

open Run LinkEvent Recorder

/-! ### Answers -/

/-- **The tag `t` is the first one in the bytes `c`.** -/
def Tag.Answers (t : Tag) (c : Bytes) : Prop :=
  ∃ p, p <+: c ∧ Scan.Decided none true p (.matched t)

namespace Scan

variable {tag : Option Bytes} {known : Bool} {c c' : Bytes} {s s' : Scan} {t : Tag}

/-- There is at most one first place at which bytes are decided. -/
theorem Decided.unique (h : Decided tag known c s) (h' : Decided tag known c' s') {all : Bytes}
    (hc : c <+: all) (hc' : c' <+: all) : s = s' := by
  obtain rfl : c = c' := h.bytes_unique h' hc hc'
  exact Option.some.inj (h.verdict.symm.trans h'.verdict)

/-- A scan for known tags has the answer that is in the bytes it has read. -/
theorem Decided.answers_iff (h : Decided none true c s) : t.Answers c ↔ s = .matched t := by
  constructor
  · rintro ⟨p, hp, ht⟩
    exact h.unique ht (List.prefix_refl c) hp
  · rintro rfl
    exact ⟨c, List.prefix_refl c, h⟩

theorem Silent.not_answers (h : Silent none true c) : ¬ t.Answers c := by
  rintro ⟨p, hp, ht⟩
  have := h p hp
  rw [ht.verdict] at this
  cases this

end Scan

/-- One tag at most is the first one. -/
theorem Tag.Answers.unique {t t' : Tag} {c : Bytes} (h : t.Answers c) (h' : t'.Answers c) : t = t' := by
  obtain ⟨p, hp, ht⟩ := h
  obtain ⟨p', hp', ht'⟩ := h'
  exact Scan.matched.inj (ht.unique ht' hp hp')

namespace Conversation

variable {Φ σ : Type} [Device σ] [Pins σ] {C : Conversation Φ} {d : σ} {p q yes no : Φ} {w : Bytes}
  {A : Bytes → Prop} {e : Engine (Recorder σ)}

/-- What is due and is a command line is no longer than one may be. -/
theorem Due.line_fits {text : String} (h : C.Due p (lineBytes text)) :
    text.utf8ByteSize ≤ commandLimit := by
  have hfits := h.fits
  rw [length_lineBytes] at hfits
  unfold lineCapacity at hfits
  omega

/-- **What is due is sent whole**, unless the run is cut short. -/
theorem ends_transmit (hd : KeepsUp d) (h : C.At d p e) (due : C.Due p w) :
    Attempt.ends C.Orderly (Engine.transmit w) (fun _ e' => C.Awaits d p w [] e')
      (fun _ _ => False) e := by
  refine Attempt.ends_of_ne (F := fun f _ => f = .timeout) ?_ ?_
  · refine ends_mono (ends_transmit_log e w) ?_ fun r e' hr => ?_
    · rintro e' ⟨part, hpart, hlog⟩
      show C.InOrder (log e')
      rw [hlog]
      exact h.leads.inOrder_part due hpart
    · cases r with
      | error f => exact hr
      | ok a =>
        obtain ⟨hadds, hlog⟩ := hr
        have hsent : log e' = log e ++ (send w ++ hear []) := by
          rw [hlog, hear, List.map_nil, List.append_nil]
        exact ⟨h.toSound.of_adds hadds, due, log e, h.leads, hsent⟩
  · rintro _ e' rfl hrun
    -- the same happens without the recorder
    let e₀ : Engine σ := ⟨e.device.device, e.window, e.timeouts, e.dropped⟩
    obtain ⟨r, e₁, hrun₀, rfl, -⟩ := both_of_ok (lockstep_transmit w e e₀ ⟨rfl, rfl⟩) hrun
    exact wp_of_ok (hd.wp_transmit h.reaches h.timeouts due.fits) hrun₀

/-- **A line that is due is sent whole** after what was waiting is thrown away. -/
theorem ends_issue (hd : KeepsUp d) {text : String} (h : C.At d p e)
    (due : C.Due p (lineBytes text)) :
    Attempt.ends C.Orderly (Engine.issue text) (fun _ e' => C.Awaits d p (lineBytes text) [] e')
      (fun _ _ => False) e := by
  unfold Engine.issue
  refine ends_quiet_lift h (keeps_drain (fun _ => trivial) true) fun _ e₁ h₁ =>
    ends_quiet_lift h₁ (keeps_log _ _) fun _ e₂ h₂ => ?_
  rw [Attempt.ends_bind, Attempt.ends_liftResult, endLine_eq due.line_fits]
  exact ends_transmit hd h₂ due

theorem ends_transmitLine (hd : KeepsUp d) {text : String} (h : C.At d p e)
    (due : C.Due p (lineBytes text)) :
    Attempt.ends C.Orderly (Engine.transmitLine text)
      (fun _ e' => C.Awaits d p (lineBytes text) [] e') (fun _ _ => False) e := by
  unfold Engine.transmitLine
  rw [Attempt.ends_bind, Attempt.ends_liftResult, commandLine_eq, join_singleton,
    if_pos due.line_fits]
  show Attempt.ends _ (do Engine.transmit (utf8 (← liftResult (endLine text)))) _ _ _
  rw [Attempt.ends_bind, Attempt.ends_liftResult, endLine_eq due.line_fits]
  exact ends_transmit hd h due

/-- **What a scan hears it hears as the answer.** -/
theorem ends_scan (h : C.Awaits d p w [] e) (timeout : UInt32) (tag : Option Bytes) (known : Bool) :
    ends C.Orderly (Engine.awaitTag timeout tag known) (fun s e' => ∃ c, C.Awaits d p w c e' ∧
      (Scan.Decided tag known c s ∨ s = .timedOut ∧ Scan.Silent tag known c)) e := by
  refine ends_mono (ends_awaitTag e timeout tag known) ?_ ?_
  · intro e' hadds
    obtain ⟨es, hlog, hes⟩ := hadds.exists_log
    rw [eq_hear_of_isHeard hes] at hlog
    exact (h.of_heard hadds hlog).orderly
  · rintro s e' ⟨hadds, c, hlog, hs⟩
    exact ⟨c, h.of_heard hadds hlog, hs⟩

/-- The prompt is seen if it is heard in time. -/
theorem ends_skipPrompt (h : C.Awaits d p w [] e) (timeout : UInt32) :
    ends C.Orderly (Engine.skipPast (utf8 sendPrompt) timeout) (fun seen e' =>
      ∃ c, C.Awaits d p w c e' ∧ (seen = true ↔ ascii '>' ∈ c)) e := by
  unfold Engine.skipPast
  refine ends_then (ends_scan h timeout _ false) ?_
  rintro s e' ⟨c, h', hs⟩
  refine ⟨c, h', ?_⟩
  rcases hs with hs | ⟨rfl, hs⟩
  · obtain rfl := Scan.eq_found_of hs.verdict
    exact iff_of_true rfl hs.prompt_mem
  · exact iff_of_false nofun hs.prompt_not_mem

/-- **A command has the answer that was heard**, and none if there was none in time. -/
theorem ends_request (hd : KeepsUp d) {pieces : List String} (h : C.At d p e)
    (due : C.Due p (lineBytes (String.join pieces))) (timeout : UInt32) :
    Attempt.ends C.Orderly (Engine.request pieces timeout)
      (fun t e' => ∃ c, C.Awaits d p (lineBytes (String.join pieces)) c e' ∧ t.Answers c)
      (fun _ e' => ∃ c, C.Awaits d p (lineBytes (String.join pieces)) c e' ∧ ∀ t : Tag, ¬ t.Answers c)
      e := by
  unfold Engine.request
  rw [Attempt.ends_bind, Attempt.ends_liftResult, commandLine_eq, if_pos due.line_fits]
  show Attempt.ends _ (do Engine.issue (String.join pieces); _) _ _ _
  rw [Attempt.ends_bind]
  refine Attempt.ends_mono (ends_issue hd h due) (fun _ e₁ h₁ => ?_) fun _ _ => False.elim
  refine Attempt.ends_lift_then (ends_scan h₁ timeout none true) ?_
  rintro s e₂ ⟨c, h₂, hs⟩
  refine ends_silent_lift h₂ (keeps_log _ _) fun _ e₃ h₃ => ?_
  have noTag (hs' : ∀ t, s ≠ .matched t) : ∃ c, C.Awaits d p (lineBytes (String.join pieces)) c e₃ ∧
      ∀ t : Tag, ¬ t.Answers c := by
    refine ⟨c, h₃, fun t ht => ?_⟩
    rcases hs with hs | ⟨-, hs⟩
    · exact hs' t (hs.answers_iff.1 ht)
    · exact hs.not_answers ht
  cases s with
  | found => exact noTag nofun
  | timedOut => exact noTag nofun
  | matched t =>
    rcases hs with hs | ⟨hs, -⟩
    · exact ⟨c, h₃, hs.answers_iff.2 rfl⟩
    · cases hs

theorem ends_requestOk (hd : KeepsUp d) {pieces : List String} (h : C.At d p e)
    (due : C.Due p (lineBytes (String.join pieces))) (timeout : UInt32) :
    Attempt.ends C.Orderly (Engine.requestOk pieces timeout)
      (fun _ e' => ∃ c, C.Awaits d p (lineBytes (String.join pieces)) c e' ∧ Tag.ok.Answers c)
      (fun _ e' => ∃ c, C.Awaits d p (lineBytes (String.join pieces)) c e' ∧ ¬ Tag.ok.Answers c) e := by
  unfold Engine.requestOk
  rw [Attempt.ends_bind]
  refine Attempt.ends_mono (ends_request hd h due timeout) ?_ ?_
  · rintro t e₁ ⟨c, h₁, ht⟩
    have rejected (hne : t ≠ .ok) : ∃ c, C.Awaits d p (lineBytes (String.join pieces)) c e₁ ∧
        ¬ Tag.ok.Answers c := ⟨c, h₁, fun hok => hne (ht.unique hok)⟩
    cases t with
    | ok => exact ⟨c, h₁, ht⟩
    | _ => exact rejected nofun
  · rintro f e₁ ⟨c, h₁, hc⟩
    exact ⟨c, h₁, hc .ok⟩

/-- A query goes on whatever the module says. -/
theorem ends_queryField (hd : KeepsUp d) {text : String} (h : C.At d p e)
    (due : C.tells p (lineBytes text) q) (start stop : Bytes) (m : Nat) :
    Attempt.ends C.Orderly (Engine.queryField text start stop m) (fun _ e' => C.At d q e')
      (fun _ e' => C.At d q e') e := by
  have hdue : C.Due p (lineBytes text) := .inl ⟨q, due⟩
  unfold Engine.queryField
  rw [Attempt.ends_bind, Attempt.ends_liftResult, commandLine_eq, join_singleton,
    if_pos hdue.line_fits]
  show Attempt.ends _ (do Engine.issue text; _) _ _ _
  rw [Attempt.ends_bind]
  refine Attempt.ends_mono (ends_issue hd h hdue) (fun _ e₁ h₁ => ?_) fun _ _ => False.elim
  have quiet : Attempt.Keeps (Adds IsQuiet) (do
      let field ← Engine.readField start stop m
      logDebug s!"<< {field}"
      return field : Attempt (Engine (Recorder σ)) String) :=
    .bind (keeps_readField (fun _ => trivial) _ _ _) fun _ => .bind (.lift (keeps_log _ _)) fun _ =>
      .pure _
  exact ends_quiet_attempt (h₁.told due) quiet (fun _ _ h => h) fun _ _ h => h

/-- **A pause after a question decides that it has not been answered.** -/
theorem ends_pause (h : C.Unanswered d no e) (ms : UInt32) :
    ends C.Orderly (onDevice (Device.delay ms)) (fun _ e' => C.At d no e') e := by
  obtain ⟨p, w, A, yes, c, due, h, answer⟩ := h
  unfold onDevice
  rw [ends_focus]
  refine ends_mono (ends_delay e.device ms) ?_ ?_
  · intro r hgrows
    have hadds : Adds IsNone e ({ e with device := r } : Engine (Recorder σ)) := ⟨hgrows, rfl⟩
    exact (h.of_none hadds).orderly
  · rintro _ r ⟨hgrows, hevents⟩
    have hadds : Adds IsQuiet e ({ e with device := r } : Engine (Recorder σ)) := ⟨hgrows, rfl⟩
    exact h.unanswered due answer hadds hevents

end Conversation

end EspWifi
