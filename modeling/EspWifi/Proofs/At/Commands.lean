import EspWifi.At.Integer
import EspWifi.Proofs.Link.Ledger

/-!
# Commands on the link

What a command throws away, what it sends and what it reads of the answer, for any ledger of any
device.

* `Command`: the three kinds of commands.
* `Engine.Issues`: what a command did to the engine.
* `Ledger.wp_request`, `Ledger.wp_requestOk`, `Ledger.wp_queryField`: what each kind does.
* `Engine.onlyReads_readInt`: reading a number only reads.
-/

namespace EspWifi

open Run

/-- The commands of the engine. -/
inductive Command where
  | request (pieces : List String) (timeout : UInt32)
  | requestOk (pieces : List String) (timeout : UInt32)
  | queryField (command : String) (start stop : Bytes) (m : Nat)

variable {σ : Type} [Device σ] {L : Ledger σ}

namespace Engine

/-- **A command threw the bytes `z` away, sent `w` and read `t`**, and it counted what it threw
away. -/
structure Issues (L : Ledger σ) (e e' : Engine σ) (z t w : Bytes) : Prop where
  device : L.moves e.device e'.device (z ++ t) w
  timeouts : e'.timeouts = e.timeouts
  dropped : e'.dropped = e.dropped + z.length

variable {e e' e'' : Engine σ} {z t c w w' : Bytes}

theorem Issues.refl (e : Engine σ) : e.Issues L e [] [] [] := ⟨L.refl _, rfl, rfl⟩

theorem Issues.then (h : e.Issues L e' z t w) (h' : e'.Moves L e'' c w') :
    e.Issues L e'' z (t ++ c) (w ++ w') where
  device := by
    rw [← List.append_assoc]
    exact L.trans h.device h'.device
  timeouts := h'.timeouts.trans h.timeouts
  dropped := h'.dropped.trans h.dropped

theorem Issues.still (h : e.Issues L e' z t w) (h' : e'.Moves L e'' [] []) :
    e.Issues L e'' z t w := by
  have := h.then h'
  rwa [List.append_nil, List.append_nil] at this

/-- An answer that is read after the command was sent. -/
theorem Issues.reads (h : e.Issues L e' z t w) (h' : e'.Moves L e'' c []) :
    e.Issues L e'' z (t ++ c) w := by
  have := h.then h'
  rwa [List.append_nil] at this

/-! ### Numbers -/

theorem onlyReads_awaitPeek {timeout : UInt32} : OnlyReads L (awaitPeek timeout) :=
  fun _ => L.wp_awaitPeek fun _ _ h => ⟨[], h⟩

/-- **Reading a number only reads.** -/
theorem onlyReads_readInt : OnlyReads L (readInt : Run (Engine σ) _) := by
  have skip : ∀ timeout, OnlyReads L (skipToNumber timeout : Run (Engine σ) _) := by
    intro timeout
    refine .bind (.bind .get fun _ => .pure _) fun _ => .loop (fun _ => ?_) _ _
    refine .bind onlyReads_awaitPeek fun r => ?_
    cases r with
    | none => exact .pure _
    | some b => exact .ite (.pure _) (.bind .read fun _ => .pure _)
  have numeral : ∀ timeout first,
      OnlyReads L (readNumeral timeout first : Run (Engine σ) _) := by
    intro timeout first
    refine .bind (.bind .get fun _ => .pure _) fun _ => .loop (fun r => ?_) _ _
    obtain ⟨n, b⟩ := r
    dsimp only
    cases n.next b with
    | overflow => exact .pure _
    | stop => exact .pure _
    | take n =>
      refine .bind .read fun _ => .bind onlyReads_awaitPeek fun r => ?_
      cases r <;> exact .pure _
  refine .bind (.bind .get fun _ => .pure _) fun timeout => .bind (skip timeout) fun r => ?_
  cases r with
  | none => exact .pure _
  | some b => exact numeral timeout b

end Engine

namespace Ledger

open Engine

variable (L) {e : Engine σ}

/-! ### Commands -/

/-- A log record of a program that may fail. -/
theorem wp_record' {level : Level} {message : String} {Q : Unit → Engine σ → Prop}
    {F : Fault → Engine σ → Prop}
    (hQ : ∀ e', e.Moves L e' [] [] → e'.window = e.window → Q () e') :
    Attempt.wp True (MonadLog.record level message) Q F e :=
  Attempt.wp_lift.2 (L.wp_record hQ)

/-- **A line goes out after what waits was thrown away.** -/
theorem wp_issue {line : String} {Q : Unit → Engine σ → Prop} {F : Fault → Engine σ → Prop}
    (hQ : ∀ z w e', e.Issues L e' z [] w → Q () e')
    (hF : ∀ f z w e', e.Issues L e' z [] w → F f e') : Attempt.wp True (issue line) Q F e := by
  unfold issue
  rw [Attempt.wp_bind, Attempt.wp_lift]
  refine L.wp_drain fun z _ e₁ hd ht hn => ?_
  have h₁ : e.Issues L e₁ z [] [] := ⟨by rwa [List.append_nil], ht, hn⟩
  rw [Attempt.wp_bind]
  refine L.wp_record' fun e₂ h₂ _ => ?_
  rw [Attempt.wp_bind, Attempt.wp_liftResult]
  cases endLine line with
  | error f => exact hF f z [] e₂ (h₁.still h₂)
  | ok line =>
    exact L.wp_transmit (fun e₃ h₃ => hQ z _ e₃ ((h₁.still h₂).then h₃))
      fun w e₃ h₃ _ => hF _ z w e₃ ((h₁.still h₂).then h₃)

/-- **A request reads up to the tag that it returns.** -/
theorem wp_request {pieces : List String} {timeout : UInt32} {Q : Tag → Engine σ → Prop}
    {F : Fault → Engine σ → Prop}
    (hQ : ∀ tag z t w e', e.Issues L e' z t w → tag.bytes <:+ t → Q tag e')
    (hF : ∀ f z t w e', e.Issues L e' z t w → F f e') :
    Attempt.wp True (request pieces timeout) Q F e := by
  unfold request
  rw [Attempt.wp_bind, Attempt.wp_liftResult]
  cases commandLine pieces with
  | error f => exact hF f _ _ _ e (.refl e)
  | ok line =>
    show Attempt.wp True (do issue line; _) Q F e
    rw [Attempt.wp_bind]
    refine L.wp_issue (fun z w e₁ h₁ => ?_) fun f z w e₁ h₁ => hF f z [] w e₁ h₁
    rw [Attempt.wp_bind, Attempt.wp_lift]
    refine L.wp_awaitTag (fun c s e₂ h₂ _ hs => ?_) fun c e₂ h₂ _ _ => ?_
    · rw [Attempt.wp_bind]
      refine L.wp_record' fun e₃ h₃ _ => ?_
      have h := (h₁.reads h₂).still h₃
      cases s with
      | matched tag => exact hQ tag z c w e₃ h (Scan.suffix_of_matched hs)
      | found => exact hF _ z c w e₃ h
      | timedOut => exact hF _ z c w e₃ h
    · rw [Attempt.wp_bind]
      exact L.wp_record' fun e₃ h₃ _ => hF _ z c w e₃ ((h₁.reads h₂).still h₃)

theorem wp_requestOk {pieces : List String} {timeout : UInt32} {Q : Unit → Engine σ → Prop}
    {F : Fault → Engine σ → Prop}
    (hQ : ∀ z t w e', e.Issues L e' z t w → Tag.ok.bytes <:+ t → Q () e')
    (hF : ∀ f z t w e', e.Issues L e' z t w → F f e') :
    Attempt.wp True (requestOk pieces timeout) Q F e := by
  unfold requestOk
  rw [Attempt.wp_bind]
  refine L.wp_request (fun tag z t w e' h ht => ?_) hF
  cases tag with
  | ok => exact hQ z t w e' h ht
  | _ => exact hF _ z t w e' h

/-- What is read between a command and the end of its answer belongs to the answer. -/
theorem wp_readField {start stop : Bytes} {m : Nat} {Q : String → Engine σ → Prop}
    {F : Fault → Engine σ → Prop} (hQ : ∀ a c e', e.Moves L e' c [] → c ≠ [] → Q a e')
    (hF : ∀ f c e', e.Moves L e' c [] → F f e') :
    Attempt.wp True (readField start stop m) Q F e := by
  have warn : ∀ {message : String} {f : Fault} {e₁ : Engine σ} {c : Bytes}, e.Moves L e₁ c [] →
      Attempt.wp True (do logWarn message; throw f) Q F e₁ := by
    intro message f e₁ c h₁
    rw [Attempt.wp_bind]
    exact L.wp_record' fun e₂ h₂ _ => hF f c e₂ (h₁.still h₂)
  unfold readField
  rw [Attempt.wp_bind, Attempt.wp_get]
  simp only [Attempt.wp_bind, Attempt.wp_lift]
  refine L.wp_awaitTag (fun c s e₁ h₁ _ hs => ?_) fun c e₁ h₁ _ _ => ?_
  case refine_2 => exact warn h₁
  cases s with
  | matched tag =>
    dsimp only
    rw [Attempt.wp_bind]
    exact L.wp_record' fun e₂ h₂ _ => hF _ c e₂ (h₁.still h₂)
  | timedOut => exact warn h₁
  | found =>
    simp only [Attempt.wp_bind, Attempt.wp_lift]
    refine L.wp_awaitTag (fun c' s e₂ h₂ _ _ => ?_) fun c' e₂ h₂ _ _ => ?_
    case refine_2 => exact warn (h₁.trans h₂)
    cases s with
    | matched tag => exact warn (h₁.trans h₂)
    | timedOut => exact warn (h₁.trans h₂)
    | found =>
      simp only [Attempt.wp_bind, Attempt.wp_lift, Attempt.wp_get]
      -- how the third scan ends makes no difference, the field was taken before it
      have last : ∀ c'' e₃, e₂.Moves L e₃ c'' [] → Attempt.wp True
          (liftResult (e₂.window.extract m stop.length)) Q F e₃ := by
        intro c'' e₃ h₃
        rw [Attempt.wp_liftResult]
        cases e₂.window.extract m stop.length with
        | ok a => exact hQ a _ e₃ ((h₁.trans h₂).trans h₃) (by simp [Scan.ne_nil_of hs])
        | error f => exact hF f _ e₃ ((h₁.trans h₂).trans h₃)
      exact L.wp_awaitTag (fun c'' s e₃ h₃ _ _ => last c'' e₃ h₃) fun c'' e₃ h₃ _ _ => last c'' e₃ h₃

theorem wp_queryField {command : String} {start stop : Bytes} {m : Nat}
    {Q : String → Engine σ → Prop} {F : Fault → Engine σ → Prop}
    (hQ : ∀ a z t w e', e.Issues L e' z t w → t ≠ [] → Q a e')
    (hF : ∀ f z t w e', e.Issues L e' z t w → F f e') :
    Attempt.wp True (queryField command start stop m) Q F e := by
  unfold queryField
  rw [Attempt.wp_bind, Attempt.wp_liftResult]
  cases commandLine [command] with
  | error f => exact hF f _ _ _ e (.refl e)
  | ok line =>
    show Attempt.wp True (do issue line; _) Q F e
    rw [Attempt.wp_bind]
    refine L.wp_issue (fun z w e₁ h₁ => ?_) fun f z w e₁ h₁ => hF f z [] w e₁ h₁
    rw [Attempt.wp_bind]
    refine L.wp_readField (fun a c e₂ h₂ hc => ?_) fun f c e₂ h₂ => hF f z c w e₂ (h₁.reads h₂)
    rw [Attempt.wp_bind]
    exact L.wp_record' fun e₃ h₃ _ => hQ a z c w e₃ ((h₁.reads h₂).still h₃) hc

end Ledger

end EspWifi
