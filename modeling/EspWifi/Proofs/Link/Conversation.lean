import EspWifi.At.Command
import EspWifi.Proofs.Link.Recorder

/-!
# Conversations

What a program says to the module, and what it waits for, is set down phase by phase. Some of what it says
is said whatever the module does; the rest are questions, and the answer decides how the program goes on.
A program that does not get its answer pauses before it goes on, so the record of the link shows which
answers came in time.

* `Conversation`: what may be sent in each phase.
* `Conversation.Leads`, `Conversation.InOrder`: records that lead to a phase, and **beginnings of such
  records**.
* `Conversation.At`, `Conversation.Awaits`: programs that are in a phase, or wait for an answer in it.
-/

namespace EspWifi

open Run LinkEvent

/-- **What may be sent in each phase of a conversation.** -/
structure Conversation (Φ : Type) where
  start : Φ
  /-- In the phase `p` the bytes `w` may be sent; whatever is heard, the next phase is `q`. -/
  tells : (p : Φ) → (w : Bytes) → (q : Φ) → Prop
  /-- In the phase `p` the bytes `w` may be sent. If what is heard then satisfies `A`, the next phase is
  `yes`; if not, there is a pause, and the next phase is `no`. -/
  asks : (p : Φ) → (w : Bytes) → (A : Bytes → Prop) → (yes no : Φ) → Prop
  tells_fits {p q : Φ} {w : Bytes} : tells p w q → w.length ≤ lineCapacity
  asks_fits {p yes no : Φ} {w : Bytes} {A : Bytes → Prop} :
    asks p w A yes no → w.length ≤ lineCapacity

namespace Conversation

/-- The bytes `w` may be sent in the phase `p`. -/
def Due {Φ : Type} (C : Conversation Φ) (p : Φ) (w : Bytes) : Prop :=
  (∃ q, C.tells p w q) ∨ ∃ A yes no, C.asks p w A yes no

/-- **One turn of the conversation**, from what is sent to what decides about the next phase. -/
inductive Turn {Φ : Type} (C : Conversation Φ) : Φ → List LinkEvent → Φ → Prop
  | told {p q : Φ} {w : Bytes} (h : C.tells p w q) : Turn C p (send w) q
  | answered {p yes no : Φ} {w c : Bytes} {A : Bytes → Prop} (h : C.asks p w A yes no)
    (answer : A c) : Turn C p (send w ++ hear c) yes
  | unanswered {p yes no : Φ} {w c : Bytes} {A : Bytes → Prop} (h : C.asks p w A yes no)
    (answer : ¬ A c) (ms : UInt32) : Turn C p (send w ++ hear c ++ [paused ms]) no

/-- **The record leads from the start of the conversation to the phase `p`**: it consists of turns, and of
events between them in which nothing is sent. -/
inductive Leads {Φ : Type} (C : Conversation Φ) : List LinkEvent → Φ → Prop
  | start : Leads C [] C.start
  | quiet {p : Φ} {es es' : List LinkEvent} (h : Leads C es p) (quiet : ∀ x ∈ es', x.IsQuiet) :
    Leads C (es ++ es') p
  | turn {p q : Φ} {es es' : List LinkEvent} (h : Leads C es p) (turn : C.Turn p es' q) :
    Leads C (es ++ es') q

variable {Φ : Type} {C : Conversation Φ} {p q yes no : Φ} {w c : Bytes} {A : Bytes → Prop}
  {es es' : List LinkEvent}

theorem Due.fits (h : C.Due p w) : w.length ≤ lineCapacity := by
  rcases h with ⟨q, h⟩ | ⟨A, yes, no, h⟩
  · exact C.tells_fits h
  · exact C.asks_fits h

/-- **The record is the beginning of one that leads to some phase.** -/
def InOrder (C : Conversation Φ) (es : List LinkEvent) : Prop := ∃ more p, C.Leads (es ++ more) p

theorem Leads.inOrder (h : C.Leads es p) : C.InOrder es := ⟨[], p, by rwa [List.append_nil]⟩

/-- What came first was in order as well. -/
theorem InOrder.beginning (h : C.InOrder es) (hes : es' <+: es) : C.InOrder es' := by
  obtain ⟨more, p, h⟩ := h
  obtain ⟨rest, rfl⟩ := hes
  exact ⟨rest ++ more, p, by rwa [← List.append_assoc]⟩

/-- While the answer to what was sent is awaited, the record is in order. -/
theorem Leads.inOrder_heard (h : C.Leads es p) (due : C.Due p w) (c : Bytes) :
    C.InOrder (es ++ (send w ++ hear c)) := by
  rcases due with ⟨q, due⟩ | ⟨A, yes, no, due⟩
  · rw [← List.append_assoc]
    exact ((h.turn (.told due)).quiet fun x hx => (isHeard_of_mem_hear hx).isQuiet).inOrder
  · by_cases answer : A c
    · exact (h.turn (.answered due answer)).inOrder
    · -- a pause would end the turn
      have turn := h.turn (.unanswered due answer 0)
      exact turn.inOrder.beginning ((List.prefix_append_right_inj _).2 (List.prefix_append _ _))

/-- A record is in order in the middle of what is sent. -/
theorem Leads.inOrder_part (h : C.Leads es p) (due : C.Due p w) {part : Bytes} (hw : part <+: w) :
    C.InOrder (es ++ send part) := by
  refine (h.inOrder_heard due []).beginning ((List.prefix_append_right_inj _).2 ?_)
  obtain ⟨rest, rfl⟩ := hw
  rw [send_append, List.append_assoc]
  exact List.prefix_append _ _

/-! ### Programs in a conversation -/

variable {σ τ α β : Type} [Device σ] [Pins σ] [OnEngine τ (Recorder σ)] {d : σ} {t t' : τ}

open Recorder

/-- **The device behind the recorder came from `d`**, and the timeouts are those the module is known to
need. -/
structure Sound (d : σ) (e : Engine (Recorder σ)) : Prop where
  reaches : Device.Reaches d e.device.device
  timeouts : e.timeouts = {}

theorem Sound.of_adds {P : LinkEvent → Prop} {e e' : Engine (Recorder σ)} (h : Sound d e)
    (hadds : e.Adds P e') : Sound d e' :=
  ⟨h.reaches.trans hadds.device.reaches, hadds.timeouts.trans h.timeouts⟩

/-- The record leads to the phase `p`. -/
structure Reached (C : Conversation Φ) (d : σ) (p : Φ) (e : Engine (Recorder σ)) : Prop
    extends Sound d e where
  leads : C.Leads e.device.events p

/-- Since the record led to the phase `p`, the bytes `w` were sent and the bytes `c` heard. -/
structure Waiting (C : Conversation Φ) (d : σ) (p : Φ) (w c : Bytes) (e : Engine (Recorder σ)) : Prop
    extends Sound d e where
  due : C.Due p w
  leads : ∃ es, C.Leads es p ∧ e.device.events = es ++ (send w ++ hear c)

/-- **The program is in the phase `p`.** -/
def At (C : Conversation Φ) (d : σ) (p : Φ) (t : τ) : Prop := C.Reached d p (OnEngine.engine t)

/-- **In the phase `p` the program has sent `w`, and has heard `c` since.** -/
def Awaits (C : Conversation Φ) (d : σ) (p : Φ) (w c : Bytes) (t : τ) : Prop :=
  C.Waiting d p w c (OnEngine.engine t)

/-- **A question was asked and has not been answered.** After a pause the phase is `no`. -/
def Unanswered (C : Conversation Φ) (d : σ) (no : Φ) (t : τ) : Prop :=
  ∃ p w A yes c, C.asks p w A yes no ∧ C.Awaits d p w c t ∧ ¬ A c

/-- The record is in order. -/
def Orderly (C : Conversation Φ) (t : τ) : Prop := C.InOrder (log t)

theorem At.orderly (h : C.At d p t) : C.Orderly t := h.leads.inOrder

/-- Where nothing is sent the phase stays. -/
theorem At.of_adds (h : C.At d p t) (hadds : Adds IsQuiet t t') : C.At d p t' := by
  obtain ⟨es, hlog, hes⟩ := hadds.exists_log
  have leads : C.Leads (log t') p := by
    rw [hlog]
    exact h.leads.quiet hes
  exact ⟨h.toSound.of_adds hadds, leads⟩

theorem Awaits.orderly (h : C.Awaits d p w c t) : C.Orderly t := by
  obtain ⟨es, hes, hlog⟩ := h.leads
  unfold Orderly log
  rw [hlog]
  exact hes.inOrder_heard h.due c

/-- What is heard is added to the answer. -/
theorem Awaits.of_heard {c' : Bytes} (h : C.Awaits d p w c t) (hadds : Adds IsHeard t t')
    (hc : log t' = log t ++ hear c') : C.Awaits d p w (c ++ c') t' := by
  obtain ⟨es, hes, hlog⟩ := h.leads
  have hlog' : log t' = es ++ (send w ++ hear (c ++ c')) := by
    rw [hc, show log t = _ from hlog, hear_append, List.append_assoc, List.append_assoc]
  exact ⟨h.toSound.of_adds hadds, h.due, es, hes, hlog'⟩

/-- An operation that adds no events leaves the question open. -/
theorem Awaits.of_none (h : C.Awaits d p w c t) (hadds : Adds IsNone t t') :
    C.Awaits d p w c t' := by
  have heard : C.Awaits d p w (c ++ []) t' := by
    refine h.of_heard (hadds.mono fun _ => False.elim) ?_
    rw [hadds.log_eq]
    exact (List.append_nil _).symm
  rwa [List.append_nil] at heard

/-- After what is told whatever is heard, the next phase has begun. -/
theorem Awaits.told (h : C.Awaits d p w c t) (due : C.tells p w q) : C.At d q t := by
  obtain ⟨es, hes, hlog⟩ := h.leads
  refine ⟨h.toSound, ?_⟩
  rw [hlog, ← List.append_assoc]
  exact (hes.turn (.told due)).quiet fun x hx => (isHeard_of_mem_hear hx).isQuiet

/-- **With the answer the program goes on.** -/
theorem Awaits.answered (h : C.Awaits d p w c t) (due : C.asks p w A yes no) (answer : A c) :
    C.At d yes t := by
  obtain ⟨es, hes, hlog⟩ := h.leads
  refine ⟨h.toSound, ?_⟩
  rw [hlog]
  exact hes.turn (.answered due answer)

/-- **Without the answer a pause decides.** -/
theorem Awaits.unanswered (h : C.Awaits d p w c t) (due : C.asks p w A yes no) (answer : ¬ A c)
    {ms : UInt32} {P : LinkEvent → Prop} (hadds : Adds P t t')
    (hpause : log t' = log t ++ [paused ms]) : C.At d no t' := by
  obtain ⟨es, hes, hlog⟩ := h.leads
  have leads : C.Leads (log t') no := by
    rw [hpause, show log t = _ from hlog, List.append_assoc]
    exact hes.turn (.unanswered due answer ms)
  exact ⟨h.toSound.of_adds hadds, leads⟩

/-! ### Programs that send nothing -/

variable {m : Run τ α} {Q : α → τ → Prop}

/-- **A program that sends nothing stays in its phase.** -/
theorem ends_quiet (h : C.At d p t) (hm : Keeps (Adds IsQuiet) m) (hQ : ∀ a t', C.At d p t' → Q a t') :
    ends C.Orderly m Q t :=
  hm.ends (fun _ hadds => (h.of_adds hadds).orderly) fun a _ hadds => hQ a _ (h.of_adds hadds)

theorem ends_quiet_attempt {x : Attempt τ α} {F : Fault → τ → Prop} (h : C.At d p t)
    (hx : Attempt.Keeps (Adds IsQuiet) x) (hQ : ∀ a t', C.At d p t' → Q a t')
    (hF : ∀ f t', C.At d p t' → F f t') : Attempt.ends C.Orderly x Q F t := by
  refine ends_quiet h hx fun r t' h' => ?_
  cases r with
  | ok a => exact hQ a t' h'
  | error f => exact hF f t' h'

/-- What sends nothing may come first. -/
theorem ends_quiet_bind {f : α → Run τ β} {Q : β → τ → Prop} (h : C.At d p t)
    (hm : Keeps (Adds IsQuiet) m) (hf : ∀ a t', C.At d p t' → ends C.Orderly (f a) Q t') :
    ends C.Orderly (m >>= f) Q t :=
  ends_bind.2 (ends_quiet h hm hf)

theorem ends_quiet_lift {f : α → Attempt τ β} {Q : β → τ → Prop} {F : Fault → τ → Prop}
    (h : C.At d p t) (hm : Keeps (Adds IsQuiet) m)
    (hf : ∀ a t', C.At d p t' → Attempt.ends C.Orderly (f a) Q F t') :
    Attempt.ends C.Orderly (lift m >>= f) Q F t :=
  Attempt.ends_bind.2 (Attempt.ends_lift.2 (ends_quiet h hm hf))

/-- A program that adds no events leaves the question open. -/
theorem ends_silent (h : C.Awaits d p w c t) (hm : Keeps (Adds IsNone) m)
    (hQ : ∀ a t', C.Awaits d p w c t' → Q a t') : ends C.Orderly m Q t :=
  hm.ends (fun _ hadds => (h.of_none hadds).orderly) fun a _ hadds => hQ a _ (h.of_none hadds)

theorem ends_silent_lift {f : α → Attempt τ β} {Q : β → τ → Prop} {F : Fault → τ → Prop}
    (h : C.Awaits d p w c t) (hm : Keeps (Adds IsNone) m)
    (hf : ∀ a t', C.Awaits d p w c t' → Attempt.ends C.Orderly (f a) Q F t') :
    Attempt.ends C.Orderly (lift m >>= f) Q F t :=
  Attempt.ends_bind.2 (Attempt.ends_lift.2 (ends_silent h hm hf))

theorem ends_unanswered (h : C.Unanswered d no t) (hm : Keeps (Adds IsNone) m)
    (hQ : ∀ a t', C.Unanswered d no t' → Q a t') : ends C.Orderly m Q t := by
  obtain ⟨p, w, A, yes, c, due, h, answer⟩ := h
  exact ends_silent h hm fun a t' h' => hQ a t' ⟨p, w, A, yes, c, due, h', answer⟩

end Conversation

end EspWifi
