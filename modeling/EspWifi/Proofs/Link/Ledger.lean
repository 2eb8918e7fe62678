import EspWifi.Proofs.At.Scan
import EspWifi.Proofs.Outcome

/-!
# What goes over the link

A ledger says which bytes a device handed out, and which ones it accepted, between two of its states.
What the engine reads and sends is worked out once, for any ledger of any device, so it holds for
every behaviour of the module, the line and the clock, as long as the run returns.

* `Ledger`: a ledger of a device; `Engine.Moves`: what went over the link of an engine.
* `Device.Offers`, `Device.GivenUp`: what a transmitter takes, and that it is given up when it has not taken
  all in time.
* `Device.TooSlow`, `Device.StaysBlocked`: **it has not taken all in time, or none at all**.
* `Engine.OnlyReads`: programs that do nothing to the engine but read.
* `Ledger.wp_awaitByte`, `Ledger.wp_awaitTag`, `Ledger.wp_drain`, `Ledger.wp_transmit`: the parts of
  the engine.
* `Tap`: the device that keeps its own ledger.
-/

namespace EspWifi

open Run

variable {σ α β : Type}

/-- **Which bytes a device handed out and which ones it accepted**, from one state to another. Only
reading hands bytes out, and only writing accepts any. -/
structure Ledger (σ : Type) [Device σ] where
  moves : σ → σ → Bytes → Bytes → Prop
  refl (d : σ) : moves d d [] []
  trans {d d' d'' : σ} {c c' w w' : Bytes} :
    moves d d' c w → moves d' d'' c' w' → moves d d'' (c ++ c') (w ++ w')
  available (d : σ) : wp True Device.available (fun _ d' => moves d d' [] []) d
  read (d : σ) : wp True Device.read (fun r d' => moves d d' r.toList []) d
  peek (d : σ) : wp True Device.peek (fun _ d' => moves d d' [] []) d
  write (d : σ) (bytes : Bytes) :
    wp True (Device.write bytes) (fun n d' => moves d d' [] (bytes.take n)) d
  takeErrors (d : σ) : wp True Device.takeErrors (fun _ d' => moves d d' [] []) d
  millis (d : σ) : wp True Device.millis (fun _ d' => moves d d' [] []) d
  delay (d : σ) (ms : UInt32) : wp True (Device.delay ms) (fun _ d' => moves d d' [] []) d
  record (d : σ) (level : Level) (message : String) :
    wp True (Device.record level message) (fun _ d' => moves d d' [] []) d

variable [Device σ] {L : Ledger σ}

/-- The ledger that says nothing of what moves. Every device has it. -/
def Ledger.blank : Ledger σ where
  moves _ _ _ _ := True
  refl _ := trivial
  trans _ _ := trivial
  available _ := wp_any fun _ _ => trivial
  read _ := wp_any fun _ _ => trivial
  peek _ := wp_any fun _ _ => trivial
  write _ _ := wp_any fun _ _ => trivial
  takeErrors _ := wp_any fun _ _ => trivial
  millis _ := wp_any fun _ _ => trivial
  delay _ _ := wp_any fun _ _ => trivial
  record _ _ _ := wp_any fun _ _ => trivial

/-! ### The transmitter -/

namespace Device

/-- **Bytes are offered to the transmitter**, from when the clock showed `start`: what it takes is not
offered again, and an offer that it turns down is repeated while `limit` has not passed. From the device
`d` and the bytes `bytes` this leads to a device with some of the bytes left. -/
inductive Offers (start limit : UInt32) (d : σ) (bytes : Bytes) : σ → Bytes → Prop
  | none : Offers start limit d bytes d bytes
  | taken {d₁ d₂ : σ} {rest : Bytes} {n : Nat} (before : Offers start limit d bytes d₁ rest)
      (offer : Device.write rest d₁ = .ok (n + 1) d₂) :
      Offers start limit d bytes d₂ (rest.drop (n + 1))
  | turnedDown {d₁ d₂ d₃ : σ} {rest : Bytes} {now : UInt32}
      (before : Offers start limit d bytes d₁ rest) (offer : Device.write rest d₁ = .ok 0 d₂)
      (clock : Device.millis d₂ = .ok now d₃) (early : now - start < limit) :
      Offers start limit d bytes d₃ rest

/-- **The transmitter is given up** with `rest` of the bytes left: it turns them down when `limit` has
passed since it was first offered the bytes. The last look at the clock leads to the device `d'`. -/
inductive GivenUp (limit : UInt32) (d : σ) (bytes rest : Bytes) (d' : σ) : Prop
  | intro {start now : UInt32} {d₁ d₂ d₃ : σ} (begins : Device.millis d = .ok start d₁)
      (offers : Offers start limit d₁ bytes d₂ rest) (left : rest ≠ [])
      (offer : Device.write rest d₂ = .ok 0 d₃) (clock : Device.millis d₃ = .ok now d')
      (late : limit ≤ now - start)

/-- **The transmitter is too slow** for the bytes: it turns down what is left of them when `limit` has
passed. That time runs from the first offer, whatever was taken since. -/
def TooSlow (limit : UInt32) (d : σ) (bytes : Bytes) : Prop := ∃ rest d', GivenUp limit d bytes rest d'

/-- **The transmitter stays blocked**: it takes none of the bytes until `limit` has passed. -/
def StaysBlocked (limit : UInt32) (d : σ) (bytes : Bytes) : Prop := ∃ d', GivenUp limit d bytes bytes d'

variable {start limit : UInt32} {d d' : σ} {bytes rest : Bytes}

theorem GivenUp.tooSlow (h : GivenUp limit d bytes rest d') : TooSlow limit d bytes := ⟨rest, d', h⟩

/-- What is left does not get longer. -/
theorem Offers.length_le (h : Offers start limit d bytes d' rest) : rest.length ≤ bytes.length := by
  induction h with
  | none => exact Nat.le_refl _
  | taken _ _ ih => exact Nat.le_trans (List.drop_sublist _ _).length_le ih
  | turnedDown _ _ _ _ ih => exact ih

/-- **As long as all of the bytes are left, every offer was turned down** and followed by a look at the
clock. `I` holds of the device after each of these looks. -/
theorem Offers.of_none_taken {I : σ → Prop} (h : Offers start limit d bytes d' bytes)
    (left : bytes ≠ []) (hd : I d)
    (look : ∀ d₁ d₂ d₃ now, I d₁ → Device.write bytes d₁ = .ok 0 d₂ → Device.millis d₂ = .ok now d₃ →
      I d₃) : I d' := by
  have hall {d₁ : σ} {rest : Bytes} (h : Offers start limit d bytes d₁ rest) : rest = bytes → I d₁ := by
    induction h with
    | none => exact fun _ => hd
    | @taken _ _ rest n before _ _ =>
      -- less would be left
      intro hrest
      have hlength := congrArg List.length hrest
      have hpos := List.length_pos_iff.2 left
      have hle := before.length_le
      rw [List.length_drop] at hlength
      omega
    | turnedDown _ offer clock _ ih =>
      rintro rfl
      exact look _ _ _ _ (ih rfl) offer clock
  exact hall h rfl

/-- **A transmitter that always takes something is never too slow.** `Inv` holds of the device as the offers
go on. -/
theorem not_tooSlow {Inv : σ → Prop} (hd : Inv d)
    (clock : ∀ d, Inv d → wp True Device.millis (fun _ => Inv) d)
    (write : ∀ d bytes, Inv d → bytes ≠ [] →
      wp True (Device.write bytes) (fun n d' => 0 < n ∧ Inv d') d) :
    ¬ TooSlow limit d bytes := by
  rintro ⟨_, _, begins, offers, left, offer, -, -⟩
  have inv {start : UInt32} {d₁ d₂ : σ} {rest : Bytes} (h : Offers start limit d₁ bytes d₂ rest)
      (left : rest ≠ []) (hd₁ : Inv d₁) : Inv d₂ := by
    induction h with
    | none => exact hd₁
    | @taken d' _ rest _ _ offer ih =>
      have hrest : rest ≠ [] := by
        rintro rfl
        exact left List.drop_nil
      exact (wp_of_ok (write d' rest (ih hrest) hrest) offer).2
    | @turnedDown d' _ _ rest _ _ offer hclock _ ih =>
      have h := (wp_of_ok (write d' rest (ih left) left) offer).2
      exact wp_of_ok (clock _ h) hclock
  have h := wp_of_ok (write _ _ (inv offers left (wp_of_ok (clock _ hd) begins)) left) offer
  exact Nat.lt_irrefl 0 h.1

end Device

/-! ### The engine -/

/-- **Between two states of the engine the bytes `c` were read and the bytes `w` sent**, and nothing
was thrown away. -/
structure Engine.Moves (L : Ledger σ) (e e' : Engine σ) (c w : Bytes) : Prop where
  device : L.moves e.device e'.device c w
  timeouts : e'.timeouts = e.timeouts
  dropped : e'.dropped = e.dropped

namespace Engine

variable {e e' e'' : Engine σ} {c c' w w' : Bytes}

theorem Moves.refl (e : Engine σ) : e.Moves L e [] [] := ⟨L.refl _, rfl, rfl⟩

theorem Moves.trans (h : e.Moves L e' c w) (h' : e'.Moves L e'' c' w') :
    e.Moves L e'' (c ++ c') (w ++ w') where
  device := L.trans h.device h'.device
  timeouts := h'.timeouts.trans h.timeouts
  dropped := h'.dropped.trans h.dropped

/-- A step during which nothing moves adds nothing to what moved. -/
theorem Moves.still (h : e.Moves L e' c w) (h' : e'.Moves L e'' [] []) : e.Moves L e'' c w := by
  have := h.trans h'
  rwa [List.append_nil, List.append_nil] at this

/-- After a step during which nothing moved comes all that moves. -/
theorem Moves.after (h : e.Moves L e' [] []) (h' : e'.Moves L e'' c w) : e.Moves L e'' c w :=
  h.trans h'

/-- The window is no part of what moves. -/
theorem Moves.window (h : e.Moves L e' c w) (window : Window windowSize) :
    e.Moves L { e' with window := window } c w := ⟨h.device, h.timeouts, h.dropped⟩

/-- A program that does nothing to the engine but read. -/
def OnlyReads (L : Ledger σ) (m : Run (Engine σ) α) : Prop :=
  ∀ e, wp True m (fun _ e' => ∃ c, e.Moves L e' c []) e

end Engine

namespace Ledger

variable (L) {e : Engine σ}

/-! ### The device -/

/-- An operation of the device during which nothing moves. -/
theorem wp_still {m : Run σ α} (hm : ∀ d, wp True m (fun _ d' => L.moves d d' [] []) d)
    {Q : α → Engine σ → Prop} (hQ : ∀ a e', e.Moves L e' [] [] → e'.window = e.window → Q a e') :
    wp True (onDevice m) Q e := by
  rw [wp_onDevice]
  exact wp_mono (hm _) fun a d h => hQ a _ ⟨h, rfl, rfl⟩ rfl

theorem elapsed (d : σ) (start : UInt32) :
    wp True (EspWifi.elapsed start) (fun _ d' => L.moves d d' [] []) d := by
  rw [EspWifi.elapsed, wp_bind]
  exact L.millis d

/-- **A byte that is read moves.** -/
theorem wp_read {Q : Option UInt8 → Engine σ → Prop}
    (hQ : ∀ r e', e.Moves L e' r.toList [] → e'.window = e.window → Q r e') :
    wp True (onDevice Device.read) Q e := by
  rw [wp_onDevice]
  exact wp_mono (L.read _) fun r d h => hQ r _ ⟨h, rfl, rfl⟩ rfl

theorem wp_record {level : Level} {message : String} {Q : Unit → Engine σ → Prop}
    (hQ : ∀ e', e.Moves L e' [] [] → e'.window = e.window → Q () e') :
    wp True (MonadLog.record level message) Q e :=
  L.wp_still (fun d => L.record d level message) fun _ e' => hQ e'

end Ledger

namespace Engine.OnlyReads

variable {m : Run (Engine σ) α}

theorem pure (a : α) : OnlyReads L (pure a : Run (Engine σ) α) := fun e => ⟨[], .refl e⟩

theorem get : OnlyReads L (get : Run (Engine σ) _) := fun e => ⟨[], .refl e⟩

theorem bind {f : α → Run (Engine σ) β} (h : OnlyReads L m) (hf : ∀ a, OnlyReads L (f a)) :
    OnlyReads L (m >>= f) := by
  intro e
  rw [wp_bind]
  refine wp_mono (h e) ?_
  rintro a e' ⟨c, hc⟩
  refine wp_mono (hf a e') ?_
  rintro b e'' ⟨c', hc'⟩
  exact ⟨c ++ c', hc.trans hc'⟩

theorem ite {p : Prop} [Decidable p] {m' : Run (Engine σ) α} (h : OnlyReads L m)
    (h' : OnlyReads L m') : OnlyReads L (if p then m else m') := by
  split
  · exact h
  · exact h'

theorem loop {body : α → Run (Engine σ) (Round α β)} (h : ∀ a, OnlyReads L (body a)) (n : Nat)
    (a : α) : OnlyReads L (Run.loop n body a) := by
  intro e
  refine wp_loop (I := fun _ _ e' => ∃ c, e.Moves L e' c []) (fun _ _ _ => trivial) ?_ _ _ _
    ⟨[], .refl e⟩
  rintro _ a e' ⟨c, hc⟩
  refine wp_mono (h a e') ?_
  rintro r e'' ⟨c', hc'⟩
  cases r <;> exact ⟨c ++ c', hc.trans hc'⟩

theorem read : OnlyReads L (onDevice Device.read : Run (Engine σ) _) :=
  fun _ => L.wp_read fun r _ h _ => ⟨r.toList, h⟩

end Engine.OnlyReads

namespace Ledger

variable (L) {e : Engine σ}

open Engine

/-! ### The parts of the engine -/

/-- A wait moves what its last try moves, as the tries that give nothing move nothing. -/
theorem wp_await {op : Run σ (Option UInt8)} {taken : Option UInt8 → Bytes}
    (hop : ∀ d, wp True op (fun r d' => L.moves d d' (taken r) []) d) (hnone : taken none = [])
    {timeout : UInt32} {Q : Option UInt8 → Engine σ → Prop}
    (hQ : ∀ r e', e.Moves L e' (taken r) [] → Q r e') : wp True (await op timeout) Q e := by
  unfold await settling
  rw [wp_bind]
  refine L.wp_still L.millis fun start e₁ h₁ _ => ?_
  simp only [wp_bind, wp_get, wp_pure]
  -- nothing has moved before a try
  refine wp_loop (I := fun _ () e' => e.Moves L e' [] []) (fun _ _ _ => trivial) ?_ _ _ _ h₁
  rintro _ ⟨⟩ e₂ h₂
  rw [wp_bind, wp_onDevice]
  refine wp_mono (hop _) fun r d hd => ?_
  have h₃ : e.Moves L { e₂ with device := d } (taken r) [] := h₂.after ⟨hd, rfl, rfl⟩
  cases r with
  | some b => exact hQ _ _ h₃
  | none =>
    simp only [wp_bind]
    refine L.wp_still (L.elapsed · _) fun _ e₄ h₄ _ => ?_
    have h := h₃.still h₄
    rw [wp_ite]
    split
    · exact hQ none e₄ h
    · rw [hnone] at h
      exact h

/-- A wait for a byte takes that byte and no other. -/
theorem wp_awaitByte {timeout : UInt32} {Q : Option UInt8 → Engine σ → Prop}
    (hQ : ∀ r e', e.Moves L e' r.toList [] → Q r e') : wp True (awaitByte timeout) Q e := by
  rw [awaitByte_eq]
  exact L.wp_await L.read rfl hQ

/-- A look takes nothing. -/
theorem wp_awaitPeek {timeout : UInt32} {Q : Option UInt8 → Engine σ → Prop}
    (hQ : ∀ r e', e.Moves L e' [] [] → Q r e') : wp True (awaitPeek timeout) Q e := by
  rw [awaitPeek_eq]
  exact L.wp_await L.peek rfl hQ

/-- **A scan takes bytes up to the first verdict**, or bytes that have none. -/
theorem wp_awaitTag_decided {timeout : UInt32} {tag : Option Bytes} {known : Bool}
    {Q : Scan → Engine σ → Prop}
    (hit : ∀ c s e', e.Moves L e' c [] → e'.window = .last c →
      Scan.Decided tag known c s → Q s e')
    (miss : ∀ c e', e.Moves L e' c [] → e'.window = .last c → Scan.Silent tag known c →
      Q .timedOut e') :
    wp True (awaitTag timeout tag known) Q e := by
  unfold awaitTag settling backlog
  rw [wp_bind, wp_modify, wp_bind]
  refine L.wp_still L.millis fun start e₁ h₁ hw₁ => ?_
  simp only [wp_bind, wp_get, wp_pure]
  -- the window holds the end of what was read, and that has no verdict yet
  refine wp_loop (I := fun _ () e' => ∃ c, e.Moves L e' c [] ∧ e'.window = .last c ∧
    Scan.Silent tag known c) (fun _ _ _ => trivial) ?_ _ _ _
    ⟨[], ⟨h₁.device, h₁.timeouts, h₁.dropped⟩, hw₁, .nil⟩
  rintro _ ⟨⟩ e₂ ⟨c, h₂, hw₂, hc⟩
  rw [wp_bind]
  refine L.wp_still (L.elapsed · _) fun _ e₃ h₃ hw₃ => ?_
  rw [wp_ite]
  split
  case isFalse =>
    rw [wp_bind]
    refine L.wp_record fun e₄ h₄ hw₄ => ?_
    exact miss c e₄ ((h₂.still h₃).still h₄) (by rw [hw₄, hw₃, hw₂]) hc
  case isTrue =>
    rw [wp_bind]
    refine L.wp_read fun r e₄ h₄ hw₄ => ?_
    cases r with
    | none => exact ⟨c, (h₂.still h₃).still h₄, by rw [hw₄, hw₃, hw₂], hc⟩
    | some b =>
      simp only [wp_bind, wp_modify, wp_get]
      refine L.wp_record fun e₅ h₅ hw₅ => ?_
      have hr := (((h₂.still h₃).trans h₄).still h₅).window (e₅.window.push b)
      have hw : e₅.window.push b = .last (c ++ [b]) := by
        rw [hw₅, hw₄, hw₃, hw₂, Window.last_append]
      rw [hw]
      rw [hw] at hr
      cases hv : Scan.verdict (.last (c ++ [b]) : Window windowSize) tag known with
      | some s => exact hit _ s _ hr rfl (hc.decided hv)
      | none => exact ⟨c ++ [b], hr, rfl, hc.append hv⟩

theorem wp_awaitTag {timeout : UInt32} {tag : Option Bytes} {known : Bool}
    {Q : Scan → Engine σ → Prop}
    (hit : ∀ c s e', e.Moves L e' c [] → e'.window = .last c → Scan.of c tag known = some s → Q s e')
    (miss : ∀ c e', e.Moves L e' c [] → e'.window = .last c → Scan.Silent tag known c →
      Q .timedOut e') :
    wp True (awaitTag timeout tag known) Q e :=
  L.wp_awaitTag_decided (fun c s e' h hw hs => hit c s e' h hw hs.verdict) miss

/-- A round of a drain takes the byte that it counts. -/
theorem wp_drainRound {warn : Bool} {n : Nat} {Q : Round Nat Nat → Engine σ → Prop}
    (stop : ∀ e', e.Moves L e' [] [] → Q (.finish n) e')
    (next : ∀ b e', e.Moves L e' [b] [] → Q (.again (n + 1)) e') :
    wp True (drainRound warn n) Q e := by
  unfold drainRound
  rw [wp_bind]
  refine L.wp_still L.available fun a e₁ h₁ _ => ?_
  rw [wp_ite]
  split
  · exact stop e₁ h₁
  rw [wp_bind]
  refine L.wp_read fun r e₂ h₂ _ => ?_
  cases r with
  | none => exact stop e₂ (h₁.still h₂)
  | some b =>
    have h₃ : e.Moves L e₂ [b] [] := h₁.trans h₂
    dsimp only
    rw [wp_ite]
    split
    · rw [wp_bind]
      exact L.wp_record fun e₄ h₄ _ => next b e₄ (h₃.still h₄)
    · exact next b e₂ h₃

/-- Nothing moves when errors are noted in the log. -/
theorem wp_reportErrors {n : Nat} {Q : Nat → Engine σ → Prop}
    (hQ : ∀ e', e.Moves L e' [] [] → Q n e') : wp True (reportErrors n) Q e := by
  unfold reportErrors
  rw [wp_bind]
  refine L.wp_still L.takeErrors fun errors e₁ h₁ _ => ?_
  rw [wp_ite]
  split
  · rw [wp_bind]
    exact L.wp_record fun e₂ h₂ _ => hQ e₂ (h₁.still h₂)
  · exact hQ e₁ h₁

/-- **What is thrown away is counted.** -/
theorem wp_drain {warn : Bool} {Q : Nat → Engine σ → Prop}
    (hQ : ∀ z n e', L.moves e.device e'.device z [] → e'.timeouts = e.timeouts →
      e'.dropped = e.dropped + z.length → Q n e') :
    wp True (drain warn) Q e := by
  rw [drain_eq]
  unfold backlog
  simp only [wp_bind, wp_get, wp_pure]
  -- each round counts the byte that it reads
  refine wp_mono (wp_loop (I := fun _ n e' => ∃ z, e.Moves L e' z [] ∧ z.length = n)
    (D := fun n e' => ∃ z, e.Moves L e' z [] ∧ z.length = n) (fun _ _ _ => trivial) ?_ _ _ _
    ⟨[], .refl e, rfl⟩) ?_
  · rintro _ n e₁ ⟨z, h₁, hn⟩
    refine L.wp_drainRound (fun e₂ h₂ => ⟨z, h₁.still h₂, hn⟩) fun b e₂ h₂ => ?_
    have hz : (z ++ [b]).length = n + 1 := by simp [hn]
    exact ⟨z ++ [b], h₁.trans h₂, hz⟩
  · rintro n e₁ ⟨z, h₁, rfl⟩
    rw [wp_modify]
    generalize he₂ : ({ e₁ with dropped := e₁.dropped + z.length } : Engine σ) = e₂
    have finish : ∀ e₃, e₂.Moves L e₃ [] [] → Q z.length e₃ := by
      intro e₃ h₃
      subst he₂
      refine hQ z _ e₃ ?_ (h₃.timeouts.trans h₁.timeouts) ?_
      · have := L.trans h₁.device h₃.device
        rwa [List.append_nil] at this
      · rw [h₃.dropped, ← h₁.dropped]
    rw [wp_ite]
    split
    · rw [wp_bind]
      exact L.wp_record fun e₃ h₃ _ => L.wp_reportErrors fun e₄ h₄ => finish e₄ (h₃.still h₄)
    · exact L.wp_reportErrors finish

/-- **What is transmitted is a beginning of what was to be transmitted.** What is left of it is offered
until nothing is left, or until the transmitter is given up. -/
theorem wp_transmit_offers {bytes : Bytes} {Q : Unit → Engine σ → Prop}
    {F : Fault → Engine σ → Prop}
    (hQ : ∀ e', e.Moves L e' [] bytes → Q () e')
    (hF : ∀ w rest e', e.Moves L e' [] w → w ++ rest = bytes →
      Device.GivenUp e.timeouts.send e.device bytes rest e'.device → F .timeout e') :
    Attempt.wp True (transmit bytes) Q F e := by
  unfold transmit settling
  rw [Attempt.wp_mk, wp_bind, wp_onDevice]
  refine wp_mono (wp_and_result (L.millis _)) ?_
  rintro start d₁ ⟨h₁, begins⟩
  simp only [wp_bind, wp_get, wp_pure]
  -- what was accepted and what is still to be offered are all the bytes
  refine wp_loop (I := fun _ rest e' => ∃ w, e.Moves L e' [] w ∧ w ++ rest = bytes ∧
    Device.Offers start e.timeouts.send d₁ bytes e'.device rest) (fun _ _ _ => trivial) ?_ _ _ _
    ⟨[], ⟨h₁, rfl, rfl⟩, rfl, .none⟩
  rintro _ rest e₂ ⟨w, h₂, hw, offers⟩
  rw [wp_ite]
  split
  · rename_i hrest
    obtain rfl := List.isEmpty_iff.1 hrest
    rw [List.append_nil] at hw
    rw [← hw] at hQ
    exact hQ e₂ h₂
  rename_i hrest
  have left : rest ≠ [] := fun h => hrest (List.isEmpty_iff.2 h)
  rw [wp_bind, wp_onDevice]
  refine wp_mono (wp_and_result (L.write _ rest)) ?_
  rintro n d₃ ⟨hd, offer⟩
  have h₃ : e.Moves L { e₂ with device := d₃ } [] (w ++ rest.take n) :=
    h₂.trans ⟨hd, rfl, rfl⟩
  cases n with
  | succ n =>
    refine ⟨_, h₃, ?_, offers.taken offer⟩
    rw [List.append_assoc, List.take_append_drop, hw]
  | zero =>
    rw [List.take_zero, List.append_nil] at h₃
    simp only [wp_bind, wp_onDevice, EspWifi.elapsed]
    refine wp_mono (wp_and_result (L.millis _)) ?_
    rintro now d₄ ⟨h₄, clock⟩
    have h₅ : e.Moves L { e₂ with device := d₄ } [] w := h₃.still ⟨h₄, rfl, rfl⟩
    rw [wp_pure, wp_ite]
    split
    · rename_i late
      exact hF w rest _ h₅ hw ⟨begins, offers, left, offer, clock, late⟩
    · rename_i early
      exact ⟨w, h₅, hw, offers.turnedDown offer clock (UInt32.not_le.1 early)⟩

/-- **All of it is transmitted if the transmission succeeds.** It only fails if the transmitter is too
slow. -/
theorem wp_transmit_tooSlow {bytes : Bytes} {Q : Unit → Engine σ → Prop}
    {F : Fault → Engine σ → Prop}
    (hQ : ∀ e', e.Moves L e' [] bytes → Q () e')
    (hF : ∀ w e', e.Moves L e' [] w → w <+: bytes →
      Device.TooSlow e.timeouts.send e.device bytes → F .timeout e') :
    Attempt.wp True (transmit bytes) Q F e :=
  L.wp_transmit_offers hQ fun w rest e' h hw hgiven =>
    hF w e' h ⟨rest, hw⟩ hgiven.tooSlow

/-- A transmission can only fail by running out of time. Nothing is read. -/
theorem wp_transmit {bytes : Bytes} {Q : Unit → Engine σ → Prop} {F : Fault → Engine σ → Prop}
    (hQ : ∀ e', e.Moves L e' [] bytes → Q () e')
    (hF : ∀ w e', e.Moves L e' [] w → w <+: bytes → F .timeout e') :
    Attempt.wp True (transmit bytes) Q F e :=
  L.wp_transmit_tooSlow hQ fun w e' h hw _ => hF w e' h hw

end Ledger

/-! ### The tap -/

/-- A device that keeps its own ledger of the bytes that are read. -/
structure Tap (σ : Type) where
  device : σ
  /-- The bytes that were read, in order. -/
  taken : Bytes := []

namespace Tap

/-- An operation of the device behind the tap. -/
def behind (m : Run σ α) : Run (Tap σ) α :=
  Run.focus (·.device) (fun d t => { t with device := d }) m

instance : Device (Tap σ) where
  available := behind Device.available
  read := do
    let byte ← behind Device.read
    modify fun t => { t with taken := t.taken ++ byte.toList }
    return byte
  peek := behind Device.peek
  write bytes := behind (Device.write bytes)
  takeErrors := behind Device.takeErrors
  millis := behind Device.millis
  delay ms := behind (Device.delay ms)
  record level message := behind (Device.record level message)
  backlog t := Device.backlog t.device
  settling t := Device.settling t.device

omit [Device σ] in
theorem wp_behind (m : Run σ α) (t : Tap σ) :
    wp True (behind m) (fun _ t' => t'.taken = t.taken ++ []) t := by
  rw [behind, wp_focus]
  exact wp_any fun _ _ => (List.append_nil _).symm

/-- The ledger of a tap, as far as the bytes go that were read. -/
def ledger : Ledger (Tap σ) where
  moves t t' c _ := t'.taken = t.taken ++ c
  refl _ := (List.append_nil _).symm
  trans h h' := by rw [h', h, List.append_assoc]
  available := wp_behind _
  read t := by
    show wp True (do
      let byte ← behind Device.read
      modify fun t => { t with taken := t.taken ++ byte.toList }
      return byte) _ t
    rw [wp_bind, behind, wp_focus]
    exact wp_any fun r d => rfl
  peek := wp_behind _
  write t _ := wp_behind _ t
  takeErrors := wp_behind _
  millis := wp_behind _
  delay t _ := wp_behind _ t
  record t _ _ := wp_behind _ t

end Tap

end EspWifi
