import EspWifi.Proofs.At.Turns
import EspWifi.Proofs.Modem.Recorded

/-!
# Driver operations in a conversation

What the commands of the driver do in a conversation in which they are due.

* `Conversation.ends_command`: a question that is answered with `ok`.
* `Conversation.ends_told`, `Conversation.ends_setUp`: commands whose outcome decides nothing.
* `Conversation.ends_announce`, `Conversation.ends_payload`: the two questions of a send.
-/

namespace EspWifi.Conversation

open Run LinkEvent Recorder

variable {Φ σ α : Type} [Device σ] [Pins σ] {C : Conversation Φ} {d₀ : σ} {p q yes no : Φ} {w : Bytes}
  {d : Driver (Recorder σ)}

/-! ### Engine programs -/

omit [Device σ] [Pins σ] in
theorem ends_onEngine {m : Run (Engine (Recorder σ)) α} {Q : α → Driver (Recorder σ) → Prop} :
    ends C.Orderly (onEngine m) Q d ↔
      ends C.Orderly m (fun a e => Q a { d with engine := e }) d.engine := ends_focus

omit [Device σ] [Pins σ] in
theorem ends_tryEngine {x : Attempt (Engine (Recorder σ)) α} {Q : α → Driver (Recorder σ) → Prop}
    {F : Fault → Driver (Recorder σ) → Prop} :
    Attempt.ends C.Orderly (tryEngine x) Q F d ↔
      Attempt.ends C.Orderly x (fun a e => Q a { d with engine := e })
        (fun f e => F f { d with engine := e }) d.engine := Attempt.ends_focus

/-- A pause after a question, on the driver. -/
theorem ends_delay_unanswered (h : C.Unanswered d₀ no d) (ms : UInt32) :
    ends C.Orderly (Driver.delay ms) (fun _ d' => C.At d₀ no d') d :=
  ends_onEngine.2 (ends_pause h ms)

/-- A failure that is noted in the log before anything else happens. -/
theorem ends_fail (h : C.Unanswered d₀ no d) (message : String) (f : Fault)
    {Q : α → Driver (Recorder σ) → Prop} :
    Attempt.ends C.Orderly (do logError message; throw f) Q (fun _ d' => C.Unanswered d₀ no d') d := by
  rw [Attempt.ends_bind]
  exact Attempt.ends_lift.2 (ends_unanswered h (keeps_driverLog _ _) fun _ _ h => h)

/-! ### Commands -/

variable (hd : KeepsUp d₀)

include hd

/-- **A command that has to be answered with `ok`.** -/
theorem ends_command {pieces : List String} (h : C.At d₀ p d)
    (due : C.asks p (lineBytes (String.join pieces)) Tag.ok.Answers yes no) (timeout : UInt32) :
    Attempt.ends C.Orderly (Driver.command pieces timeout) (fun _ d' => C.At d₀ yes d')
      (fun _ d' => C.Unanswered d₀ no d') d := by
  refine ends_tryEngine.2 (Attempt.ends_mono
    (ends_requestOk hd h (.inr ⟨_, _, _, due⟩) timeout) ?_ ?_)
  · rintro _ e ⟨c, h, answer⟩
    exact h.answered due answer
  · rintro _ e ⟨c, h, answer⟩
    exact ⟨p, _, _, yes, c, due, h, answer⟩

/-- A command whose outcome decides nothing. -/
theorem ends_told {pieces : List String} (h : C.At d₀ p d)
    (due : C.tells p (lineBytes (String.join pieces)) q) (timeout : UInt32) :
    Attempt.ends C.Orderly (Driver.command pieces timeout) (fun _ d' => C.At d₀ q d')
      (fun _ d' => C.At d₀ q d') d := by
  refine ends_tryEngine.2 (Attempt.ends_mono (ends_requestOk hd h (.inl ⟨q, due⟩) timeout) ?_ ?_)
  · rintro _ e ⟨c, h, -⟩
    exact h.told due
  · rintro _ e ⟨c, h, -⟩
    exact h.told due

theorem ends_setUp {text : String} (h : C.At d₀ p d) (due : C.tells p (lineBytes text) q) :
    ends C.Orderly (Driver.setUp text) (fun _ d' => C.At d₀ q d') d := by
  have due' : C.tells p (lineBytes (String.join [text])) q := by rwa [join_singleton]
  unfold Driver.setUp
  refine ends_quiet_bind h keeps_timeouts fun timeouts d₁ h₁ => ?_
  rw [ends_bind, Attempt.ends_run]
  refine Attempt.ends_mono (ends_told hd h₁ due' _) (fun _ d₂ h₂ => h₂) fun f d₂ h₂ => ?_
  exact ends_quiet h₂ (keeps_driverLog _ _) fun _ d₃ h₃ => h₃

theorem ends_query {command start stop : String} {m : Nat} (h : C.At d₀ p d)
    (due : C.tells p (lineBytes command) q) :
    Attempt.ends C.Orderly (Driver.query command start stop m) (fun _ d' => C.At d₀ q d')
      (fun _ d' => C.At d₀ q d') d :=
  ends_tryEngine.2 (ends_queryField hd h due _ _ _)

/-! ### Payload -/

/-- **An announcement asks for the prompt.** -/
theorem ends_announce {pieces : List String} (h : C.At d₀ p d)
    (due : C.asks p (lineBytes (String.join pieces)) (ascii '>' ∈ ·) yes no) :
    Attempt.ends C.Orderly (Driver.announce pieces) (fun _ d' => C.At d₀ yes d')
      (fun _ d' => C.Unanswered d₀ no d') d := by
  have hdue : C.Due p (lineBytes (String.join pieces)) := .inr ⟨_, _, _, due⟩
  unfold Driver.announce
  rw [Attempt.ends_bind, Attempt.ends_liftResult, commandLine_eq, if_pos hdue.line_fits]
  show Attempt.ends _ (do tryEngine (Engine.transmitLine (String.join pieces)); _) _ _ _
  rw [Attempt.ends_bind]
  refine ends_tryEngine.2 (Attempt.ends_mono (ends_transmitLine hd h hdue) (fun _ e₁ h₁ => ?_)
    fun _ _ => False.elim)
  refine ends_silent_lift h₁ keeps_timeouts fun timeouts d₂ h₂ => ?_
  rw [Attempt.ends_bind]
  refine Attempt.ends_lift.2 (ends_onEngine.2 (ends_mono (ends_skipPrompt h₂ _) (fun _ h => h) ?_))
  rintro seen e₃ ⟨c, h₃, hseen⟩
  split
  · exact h₃.answered due (hseen.1 ‹_›)
  · exact ends_fail ⟨p, _, _, yes, c, due, h₃, mt hseen.2 ‹_›⟩ _ _

/-- **A payload asks for its confirmation.** -/
theorem ends_payload {bytes : Bytes} (h : C.At d₀ p d)
    (due : C.asks p bytes Tag.sendOk.Answers yes no) :
    Attempt.ends C.Orderly (do Driver.transmit bytes; Driver.confirm)
      (fun _ d' => C.At d₀ yes d') (fun _ d' => C.Unanswered d₀ no d') d := by
  rw [Attempt.ends_bind]
  refine ends_tryEngine.2 (Attempt.ends_mono (ends_transmit hd h (.inr ⟨_, _, _, due⟩))
    (fun _ e₁ h₁ => ?_) fun _ _ => False.elim)
  unfold Driver.confirm
  refine ends_silent_lift h₁ keeps_timeouts fun timeouts d₂ h₂ => ?_
  rw [Attempt.ends_bind]
  refine Attempt.ends_lift.2 (ends_onEngine.2 (ends_mono (ends_scan h₂ _ none true) (fun _ h => h) ?_))
  rintro s e₃ ⟨c, h₃, hs⟩
  have unanswered (hs' : s ≠ .matched .sendOk) :
      C.Unanswered d₀ no ({ d₂ with engine := e₃ } : Driver (Recorder σ)) := by
    refine ⟨p, _, _, yes, c, due, h₃, ?_⟩
    rcases hs with hs | ⟨-, hs⟩
    · exact mt hs.answers_iff.1 hs'
    · exact hs.not_answers
  cases s with
  | found => exact ends_fail (unanswered nofun) _ _
  | timedOut => exact ends_fail (unanswered nofun) _ _
  | matched t =>
    cases t with
    | sendOk =>
      rcases hs with hs | ⟨hs, -⟩
      · exact h₃.answered due (hs.answers_iff.2 rfl)
      · cases hs
    | _ => exact ends_fail (unanswered nofun) _ _

end EspWifi.Conversation
