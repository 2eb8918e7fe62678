import EspWifi.Proofs.At.Commands
import EspWifi.Proofs.At.Recall
import EspWifi.Proofs.Modem.LinkReport
import EspWifi.Proofs.Net.Slots

/-!
# What a link is given up for

A client that has no data asks the module for its links, and gives its own link up unless a line about it
is heard. That the module has told its links and this one is not among them is only one of the reasons why
no such line is heard.

* `Search`: how the search for a line ends; `Engine.Hears`: what was heard then.
* `Driver.wp_isListed_searched`: **what a search answers**.
* `Client.Checked`, `Client.checked_of_status`: **when a client keeps its link and when it gives it up.**
-/

namespace EspWifi

open Run

/-- **How the search for a line about a link ends.** -/
inductive Search where
  /-- The question was not sent. -/
  | unsent
  /-- No line about the link began, and no known tag came in time. -/
  | unanswered
  /-- A known tag came before a line about the link. -/
  | unlisted (t : Tag)
  /-- A line about the link began, and was not heard to its comma in time. -/
  | brokenOff
  /-- A line about the link began, and a known tag came before its comma. -/
  | cutOff (t : Tag)
  /-- A line about the link was heard whose type is no text. -/
  | garbled
  /-- A line about the link was heard. -/
  | listed
  deriving DecidableEq

/-- What is answered then. -/
def Search.answer : Search → Except Fault Bool
  | listed => .ok true
  | unlisted _ | cutOff _ => .ok false
  | unsent | unanswered | brokenOff => .error .timeout
  | garbled => .error .parse

variable {σ : Type} [Device σ] {L : Ledger σ}

namespace Engine

/-- **What was heard of a report** when a search in it ends. A line that is sought begins with `start` and
has its first field before `stop`. -/
inductive Hears (L : Ledger σ) (start stop : Bytes) (m : Nat) (e e' : Engine σ) : Search → Prop
  | unanswered {c : Bytes} (heard : e.Moves L e' c []) (silent : Scan.Silent (some start) true c) :
      Hears L start stop m e e' .unanswered
  | unlisted {c : Bytes} {t : Tag} (heard : e.Moves L e' c [])
      (ended : Scan.Decided (some start) true c (.matched t)) : Hears L start stop m e e' (.unlisted t)
  | brokenOff {c₁ c₂ : Bytes} (heard : e.Moves L e' (c₁ ++ c₂) [])
      (began : Scan.Decided (some start) true c₁ .found) (silent : Scan.Silent (some stop) true c₂) :
      Hears L start stop m e e' .brokenOff
  | cutOff {c₁ c₂ : Bytes} {t : Tag} (heard : e.Moves L e' (c₁ ++ c₂) [])
      (began : Scan.Decided (some start) true c₁ .found)
      (ended : Scan.Decided (some stop) true c₂ (.matched t)) : Hears L start stop m e e' (.cutOff t)
  | garbled {c₁ c₂ c₃ : Bytes} (heard : e.Moves L e' (c₁ ++ c₂ ++ c₃) [])
      (began : Scan.Decided (some start) true c₁ .found)
      (ended : Scan.Decided (some stop) true c₂ .found)
      (noText : (Window.last c₂ : Window windowSize).extract m stop.length = .error .parse) :
      Hears L start stop m e e' .garbled
  | listed {c₁ c₂ c₃ : Bytes} {text : String} (heard : e.Moves L e' (c₁ ++ c₂ ++ c₃) [])
      (began : Scan.Decided (some start) true c₁ .found)
      (ended : Scan.Decided (some stop) true c₂ .found)
      (isText : (Window.last c₂ : Window windowSize).extract m stop.length = .ok text) :
      Hears L start stop m e e' .listed

variable {start stop : Bytes} {m : Nat} {e : Engine σ}

/-- A step during which nothing moves changes nothing of what was heard. -/
theorem Hears.still {e' e'' : Engine σ} {s : Search} (h : e.Hears L start stop m e' s)
    (hstill : e'.Moves L e'' [] []) : e.Hears L start stop m e'' s := by
  cases h with
  | unanswered heard silent => exact .unanswered (heard.still hstill) silent
  | unlisted heard ended => exact .unlisted (heard.still hstill) ended
  | brokenOff heard began silent => exact .brokenOff (heard.still hstill) began silent
  | cutOff heard began ended => exact .cutOff (heard.still hstill) began ended
  | garbled heard began ended noText => exact .garbled (heard.still hstill) began ended noText
  | listed heard began ended isText => exact .listed (heard.still hstill) began ended isText

/-- A search that has ended in a way that fits its result. -/
def Heard (L : Ledger σ) (start stop : Bytes) (m : Nat) (e : Engine σ) (r : Except Fault String)
    (e' : Engine σ) : Prop :=
  ∃ s, e.Hears L start stop m e' s ∧ Driver.isThere r = s.answer

theorem wp_readField_heard (L : Ledger σ) :
    Attempt.wp True (readField start stop m) (fun text => e.Heard L start stop m (.ok text))
      (fun f => e.Heard L start stop m (.error f)) e := by
  have finish {s : Search} {f : Fault} {level : Level} {message : String} {e₁ : Engine σ}
      (hanswer : Driver.isThere (.error f) = s.answer)
      (hears : ∀ e₂, e₁.Moves L e₂ [] [] → e.Hears L start stop m e₂ s) :
      Attempt.wp True (do MonadLog.record level message; throw f)
        (fun text => e.Heard L start stop m (.ok text)) (fun f => e.Heard L start stop m (.error f))
        e₁ := by
    rw [Attempt.wp_bind]
    exact L.wp_record' fun e₂ h₂ _ => ⟨s, hears e₂ h₂, hanswer⟩
  unfold readField
  simp only [Attempt.wp_bind, Attempt.wp_get, Attempt.wp_lift]
  refine L.wp_awaitTag_decided (fun c₁ s₁ e₁ h₁ _ hs₁ => ?_) fun c₁ e₁ h₁ _ hsilent => ?_
  case refine_2 => exact finish rfl fun e₂ h₂ => .unanswered (h₁.still h₂) hsilent
  cases s₁ with
  | matched t => exact finish rfl fun e₂ h₂ => .unlisted (h₁.still h₂) hs₁
  | timedOut => exact absurd hs₁.verdict Scan.verdict_ne_timedOut
  | found =>
    simp only [Attempt.wp_bind, Attempt.wp_lift]
    refine L.wp_awaitTag_decided (fun c₂ s₂ e₂ h₂ hwindow hs₂ => ?_) fun c₂ e₂ h₂ _ hsilent => ?_
    case refine_2 => exact finish rfl fun e₃ h₃ => .brokenOff ((h₁.trans h₂).still h₃) hs₁ hsilent
    cases s₂ with
    | matched t => exact finish rfl fun e₃ h₃ => .cutOff ((h₁.trans h₂).still h₃) hs₁ hs₂
    | timedOut => exact absurd hs₂.verdict Scan.verdict_ne_timedOut
    | found =>
      simp only [Attempt.wp_bind, Attempt.wp_lift, Attempt.wp_get]
      rw [hwindow]
      -- how the third scan ends makes no difference, the field was taken before it
      have last {c₃ : Bytes} {e₃ : Engine σ} (h₃ : e₂.Moves L e₃ c₃ []) :
          Attempt.wp True (liftResult ((Window.last c₂ : Window windowSize).extract m stop.length))
            (fun text => e.Heard L start stop m (.ok text))
            (fun f => e.Heard L start stop m (.error f)) e₃ := by
        have heard := (h₁.trans h₂).trans h₃
        rw [Attempt.wp_liftResult]
        cases htext : (Window.last c₂ : Window windowSize).extract m stop.length with
        | ok text => exact ⟨.listed, .listed heard hs₁ hs₂ htext, rfl⟩
        | error f =>
          obtain ⟨rfl, -⟩ := Window.extract_eq_error_iff.1 htext
          exact ⟨.garbled, .garbled heard hs₁ hs₂ htext, rfl⟩
      exact L.wp_awaitTag (fun c₃ s₃ e₃ h₃ _ _ => last h₃) fun c₃ e₃ h₃ _ _ => last h₃

/-- **What a query answers can be told from what was heard.** -/
theorem wp_hearField_heard (L : Ledger σ) :
    wp True (hearField start stop m).run (e.Heard L start stop m) e := by
  rw [Attempt.wp_run]
  unfold hearField
  rw [Attempt.wp_bind]
  refine Attempt.wp_mono (wp_readField_heard L) ?_ fun _ _ h => h
  rintro text e₁ ⟨s, hears, hanswer⟩
  rw [Attempt.wp_bind]
  exact L.wp_record' fun e₂ h₂ _ => ⟨s, hears.still h₂, hanswer⟩

/-- A command that is not too long fails only by running out of time. -/
theorem wp_ask (L : Ledger σ) {command : String} (hfits : command.utf8ByteSize ≤ commandLimit)
    {Q : Unit → Engine σ → Prop} {F : Fault → Engine σ → Prop} (hQ : ∀ e', Q () e')
    (hF : ∀ e', F .timeout e') : Attempt.wp True (ask command) Q F e := by
  unfold ask issue
  rw [commandLine_eq, join_singleton, if_pos hfits]
  show Attempt.wp True (do let _ ← lift (drain true); _) Q F e
  rw [Attempt.wp_bind, Attempt.wp_lift]
  refine L.wp_drain fun _ _ e₁ _ _ _ => ?_
  rw [Attempt.wp_bind]
  refine L.wp_record' fun e₂ _ _ => ?_
  rw [endLine_eq hfits]
  exact L.wp_transmit (fun e' _ => hQ e') fun _ e' _ _ => hF e'

end Engine

namespace Driver

/-- **A search for a line about a link, and how it ended.** -/
inductive Searched (L : Ledger σ) (link : UInt8) (d d' : Driver σ) : Search → Prop
  | unsent (asked : (askLinks link).run d = .ok (.error .timeout) d') : Searched L link d d' .unsent
  | heard {d₁ : Driver σ} {s : Search} (asked : (askLinks link).run d = .ok (.ok ()) d₁)
      (hears : d₁.engine.Hears L (utf8 (linkTag link)) (utf8 ",") shortCapacity d'.engine s) :
      Searched L link d d' s

variable {link : UInt8} {d : Driver σ}

/-- The question fails only by running out of time. -/
theorem wp_askLinks (L : Ledger σ) :
    Attempt.wp True (askLinks link) (fun _ _ => True) (fun f _ => f = .timeout) d := by
  unfold askLinks
  rw [Attempt.wp_bind]
  refine Attempt.wp_lift.2 (wp_any fun _ d₁ => wp_tryEngine.2 ?_)
  exact Engine.wp_ask L (by decide) (fun _ => trivial) fun _ => rfl

/-- **What a search answers can be told from how it ended.** -/
theorem wp_isListed_searched (L : Ledger σ) :
    wp True (isListed link).run (fun r d' => ∃ s, Searched L link d d' s ∧ r = s.answer) d := by
  refine wp_isListed (wp_mono (wp_and_result (wp_askLinks L)) ?_)
  rintro r d₁ ⟨h, asked⟩
  cases r with
  | error f =>
    obtain rfl : f = .timeout := h
    exact ⟨.unsent, .unsent asked, rfl⟩
  | ok _ =>
    refine wp_mono (Engine.wp_hearField_heard L) ?_
    rintro _ e ⟨s, hears, hanswer⟩
    exact ⟨s, .heard asked hears, hanswer⟩

end Driver

namespace Client

/-- **What a client has found out about its link**, the state it tells, and the handle it is left with. -/
inductive Checked (L : Ledger σ) (c : Client) (link : UInt8) (w w' : Wifi σ) : TcpState → Client → Prop
  /-- Data waits on the link. -/
  | waiting {n : UInt16} (counted : Driver.available (some link) w.driver = .ok n w'.driver)
      (positive : 0 < n) (kept : w'.links = w.links) : Checked L c link w w' .established c
  | listed {d : Driver σ} (counted : Driver.available (some link) w.driver = .ok 0 d)
      (searched : Driver.Searched L link d w'.driver .listed) (kept : w'.links = w.links) :
      Checked L c link w w' .established c
  /-- No line about the link was heard, for whatever reason. -/
  | givenUp {d : Driver σ} {s : Search} (counted : Driver.available (some link) w.driver = .ok 0 d)
      (searched : Driver.Searched L link d w'.driver s) (unheard : s ≠ .listed)
      (released : w'.links = w.links.release link) : Checked L c link w w' .closed ⟨none⟩

variable {c c' : Client} {link : UInt8} {w w' : Wifi σ}

theorem wp_status_checked (L : Ledger σ) (hc : c.link = some link) :
    wp True c.status (fun r w' => Checked L c link w w' r.1 r.2) w := by
  unfold status
  rw [hc]
  dsimp only
  rw [wp_bind, wp_onDriver]
  refine wp_mono (wp_and_result (wp_any fun _ _ => trivial)) ?_
  rintro n d ⟨-, counted⟩
  rw [wp_ite]
  split
  case isTrue hpos => exact .waiting counted hpos rfl
  case isFalse hzero =>
    obtain rfl : n = 0 := UInt16.le_zero_iff.1 (UInt16.not_lt.1 hzero)
    rw [wp_bind]
    refine Attempt.wp_run.2 (wp_tryDriver.2 ?_)
    refine Attempt.wp_mono (Attempt.wp_run.1 (Driver.wp_isListed_searched L)) ?_ ?_
    -- only one of the ends of a search answers that the link is listed
    · rintro found d' ⟨s, searched, hanswer⟩
      cases found with
      | true =>
        obtain rfl : s = .listed := by cases s <;> first | rfl | cases hanswer
        exact .listed counted searched rfl
      | false => exact .givenUp counted searched (by rintro rfl; cases hanswer) rfl
    · rintro f d' ⟨s, searched, hanswer⟩
      exact .givenUp counted searched (by rintro rfl; cases hanswer) rfl

/-- What a client answers that was asked for the state of its link. -/
inductive Tells : ClientAction → TcpState → Reply → Prop
  | status (state : TcpState) : Tells .status state (.tcp state)
  | connected (state : TcpState) : Tells .connected state (.flag (state == .established))

/-- **When a client keeps its link and when it gives it up.** It keeps it exactly if data waits on it, or if
a line about it was heard to the end of its first field and that is a text. Otherwise it gives it up: if a
known tag came before such a line began, which says that the link is gone, but also if the question was
not sent, if no known tag came in time, if the line was not heard to that end, or if the field is no
text. -/
theorem checked_of_status (L : Ledger σ) {clients : Nat → Client} {a : ClientAction} {r : Reply}
    (hc : c.link = some link) (ha : a = .status ∨ a = .connected)
    (h : a.perform clients c w = .ok (r, c') w') :
    ∃ state, Tells a state r ∧ Checked L c link w w' state c' := by
  have hstatus := wp_status_checked (w := w) L hc
  have hperform : wp True (a.perform clients c)
      (fun r w' => ∃ state, Tells a state r.1 ∧ Checked L c link w w' state r.2) w := by
    rcases ha with rfl | rfl
    · refine wp_bind.2 (wp_mono hstatus ?_)
      rintro ⟨state, c''⟩ w'' hchecked
      exact ⟨state, .status state, hchecked⟩
    · refine wp_bind.2 (wp_bind.2 (wp_mono hstatus ?_))
      rintro ⟨state, c''⟩ w'' hchecked
      exact ⟨state, .connected state, hchecked⟩
  exact wp_of_ok hperform h

theorem perform_status (clients : Nat → Client) {state : TcpState} (h : c.status w = .ok (state, c') w') :
    ClientAction.status.perform clients c w = .ok (.tcp state, c') w' := by
  show EStateM.bind c.status _ w = _
  rw [EStateM.bind, h]
  rfl

/-- A network on whose link 3 a client is, with a module that gives these answers. -/
def onLinkThree (answers : List Chunks) : Wifi Bench where
  driver := { engine := { device := { replies := answers } } }
  links := ⟨.set (.replicate linkCount {}) 3 { inUse := true }⟩

/-- A report in which the link 3 is listed. -/
def listsThree : Bytes := utf8 "STATUS:3\r\n+CIPSTATUS:3,\"TCP\",\"10.0.0.5\",80,4096,0\r\n\r\nOK\r\n"

theorem checked_listed :
    ∃ w', ClientAction.perform (fun _ => {}) ⟨some 3⟩ .status (onLinkThree [[(0, listsThree)]]) =
        .ok (.tcp .established, ⟨some 3⟩) w' ∧
      Checked Bench.ledger ⟨some 3⟩ 3 (onLinkThree [[(0, listsThree)]]) w' .established ⟨some 3⟩ := by
  have hvalue : value? (status ⟨some 3⟩) (onLinkThree [[(0, listsThree)]]) =
      some (.established, ⟨some 3⟩) := by
    decide +kernel
  obtain ⟨w', hrun⟩ := value?_eq_some.1 hvalue
  have hperform := perform_status (fun _ => {}) hrun
  obtain ⟨state, ⟨⟩, hchecked⟩ := checked_of_status Bench.ledger rfl (.inl rfl) hperform
  exact ⟨w', hperform, hchecked⟩

/-- **The link of a client is given up when the module is silent.** The module sends nothing at all, so it
has not said that the link is gone. -/
theorem silence_gives_up :
    (onLinkThree []).device.replies = [] ∧ (onLinkThree []).device.backlog = 0 ∧
    ∃ w', ClientAction.perform (fun _ => {}) ⟨some 3⟩ .status (onLinkThree []) =
        .ok (.tcp .closed, ⟨none⟩) w' ∧
      (onLinkThree []).links.isClaimed 3 = true ∧ w'.links.isClaimed 3 = false ∧
      w'.device.sent = utf8 "AT+CIPSTATUS\r\n" := by
  have hvalue : shown? (status ⟨some 3⟩) (fun r w => (r, w.links.isClaimed 3, w.device.sent))
      (onLinkThree []) =
      some ((.closed, ⟨none⟩), false, utf8 "AT+CIPSTATUS\r\n") := by
    decide +kernel
  obtain ⟨r, w', hrun, hshown⟩ := shown?_eq_some.1 hvalue
  obtain ⟨rfl, htable⟩ := Prod.mk.inj hshown
  obtain ⟨hlinks, hsent⟩ := Prod.mk.inj htable
  exact ⟨rfl, rfl, w', perform_status _ hrun, by decide, hlinks, hsent⟩

end Client

end EspWifi
