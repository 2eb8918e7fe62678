import EspWifi.Modem.Traffic
import EspWifi.Proofs.At.Commands

/-!
# Receiving on the link

The calls for inbound data, what they read, and what becomes of the packet, for any ledger of any
device.

* `Inbound`, `Answer`: the calls and their answers; `delivered`: the payload bytes that were handed
  out, each with the link it went to.
* `Driver.Moves`: what went over the link while the packet stayed as it was.
* `Driver.wp_available_held`: a look at a packet that has unread payload.
* `Driver.Hands`: what a call hands out, and what it leaves of the packet.
* `Driver.session_hands`: **reads hand out what comes next on the link**, and no more of it than the
  packet has.
-/

namespace EspWifi

open Run

variable {σ : Type} [Device σ] {L : Ledger σ}

/-- The calls that inbound data is read with. -/
inductive Inbound where
  | available (link : Option UInt8)
  | byte (link : UInt8) (peek : Bool)
  | bytes (link : UInt8) (n : Nat)

/-- Their answers. -/
inductive Answer where
  | pending (n : UInt16)
  | byte (r : Except Fault Driver.Received)
  | bytes (r : Except Fault Bytes)

namespace Inbound

/-- Calls that read payload, not headers. -/
def isRead : Inbound → Bool
  | available _ => false
  | byte _ _ | bytes _ _ => true

/-- Make a call. -/
def perform : Inbound → Run (Driver σ) Answer
  | available link => do return .pending (← Driver.available link)
  | byte link peek => do return .byte (← (Driver.receiveByte link peek).run)
  | bytes link n => do return .bytes (← (Driver.receive link n).run)

/-- Make the calls of a run, and note their answers. -/
def session : List Inbound → Run (Driver σ) (List (Inbound × Answer))
  | [] => return []
  | c :: cs => do
    let answer ← c.perform
    return (c, answer) :: (← session cs)

end Inbound

/-- The payload bytes that an answer hands out, each with the link it goes to. A look hands out
nothing. -/
def handed : Inbound → Answer → List (UInt8 × UInt8)
  | .byte link false, .byte (.ok r) => [(link, r.byte)]
  | .bytes link _, .bytes (.ok bytes) => bytes.map (link, ·)
  | _, _ => []

/-- **The payload bytes handed out by a row of calls**, in order. -/
def delivered (log : List (Inbound × Answer)) : List (UInt8 × UInt8) :=
  log.flatMap fun entry => handed entry.1 entry.2

/-! ### Counting down -/

/-- Counting bytes down in two steps is counting them down at once. -/
theorem sub_toUInt16_sub (r : UInt16) (m n : Nat) :
    r - m.toUInt16 - n.toUInt16 = r - (m + n).toUInt16 := by
  have hadd : (m + n).toUInt16 = m.toUInt16 + n.toUInt16 := UInt16.ofNat_add _ _
  rw [hadd]
  grind

theorem toNat_sub_toUInt16 {r : UInt16} {n : Nat} (h : n ≤ r.toNat) :
    (r - n.toUInt16).toNat = r.toNat - n := by
  have hlt := r.toNat_lt
  have hn : n.toUInt16.toNat = n := by
    rw [Nat.toUInt16, UInt16.toNat_ofNat', Nat.mod_eq_of_lt (by omega)]
  rw [UInt16.toNat_sub_of_le _ _ (by rw [UInt16.le_iff_toNat_le, hn]; exact h), hn]

theorem Packet.isDrained_iff {p : Packet} : p.isDrained = true ↔ p.remaining.toNat = 0 := by
  unfold isDrained
  rw [beq_iff_eq, ← UInt16.toNat_inj]
  rfl

theorem Packet.isDrained_empty : ({} : Packet).isDrained = true := rfl

theorem Packet.isFor_iff {p : Packet} {link : UInt8} : p.isFor (some link) = true ↔ p.link = link :=
  beq_iff_eq.trans eq_comm

/-- Reading a header only reads. -/
theorem Packet.onlyReads_read : Engine.OnlyReads L (Packet.read : OptionT (Run (Engine σ)) _).run := by
  have bind : ∀ {α β : Type} {x : OptionT (Run (Engine σ)) α} {f : α → OptionT (Run (Engine σ)) β},
      Engine.OnlyReads L x.run → (∀ a, Engine.OnlyReads L (f a).run) →
      Engine.OnlyReads L (x >>= f).run := by
    intro α β x f hx hf
    rw [OptionT.run_bind]
    refine .bind hx fun r => ?_
    cases r with
    | none => exact .pure _
    | some a => exact hf a
  have byte : Engine.OnlyReads L (readByte : OptionT (Run (Engine σ)) _).run :=
    bind Engine.onlyReads_readInt fun _ => .pure _
  have word : Engine.OnlyReads L (readWord : OptionT (Run (Engine σ)) _).run :=
    bind Engine.onlyReads_readInt fun _ => .pure _
  have stop : ∀ timeout (p : Packet), Engine.OnlyReads L (do
      let stop ← OptionT.mk (Engine.awaitByte timeout)
      if stop = ascii ':' then return p else failure : OptionT (Run (Engine σ)) Packet).run := by
    intro timeout p
    refine bind (fun e => L.wp_awaitByte fun r e' h => ⟨r.toList, h⟩) fun b => ?_
    split
    · exact .pure _
    · exact .pure _
  unfold read
  refine bind (fun e => ?_) fun timeout => bind byte fun link => bind word fun remaining =>
    bind Engine.onlyReads_awaitPeek fun next => ?_
  · rw [wp_run_lift]
    exact ⟨[], .refl e⟩
  split
  · unfold readSender
    exact bind (bind byte fun _ => bind byte fun _ => bind byte fun _ => bind byte fun _ =>
      bind word fun _ => .pure _) fun _ => bind (.pure _) fun p => stop timeout p
  · exact bind (.pure _) fun p => stop timeout p

namespace Driver

variable {cut : Prop} {d d' d'' : Driver σ} {c c' w w' : Bytes}

/-! ### Calls that change nothing -/

omit [Device σ] in
@[simp] theorem wp_timeouts {Q : Timeouts → Driver σ → Prop} :
    wp cut timeouts Q d ↔ Q d.engine.timeouts d := Iff.rfl

/-- If nothing was thrown away, the packet stays. -/
theorem wp_forgetStalePacket_kept {Q : Unit → Driver σ → Prop}
    (h : d.engine.dropped = 0) (hQ : Q () d) : wp cut forgetStalePacket Q d := by
  have hd : { d with engine := { d.engine with dropped := 0 } } = d := by
    rw [← h]
  unfold forgetStalePacket Engine.takeDropped
  simp only [wp_bind, wp_onEngine, wp_modifyGet, wp_get, hd]
  rw [if_neg (by simp [h])]
  exact hQ

/-- A packet that is drained has nothing to lose. -/
theorem wp_forgetStalePacket_drained {Q : Unit → Driver σ → Prop}
    (h : d.packet.isDrained = true)
    (hQ : Q () { d with engine := { d.engine with dropped := 0 } }) :
    wp cut forgetStalePacket Q d := by
  unfold forgetStalePacket Engine.takeDropped
  simp only [wp_bind, wp_onEngine, wp_modifyGet, wp_get]
  rw [if_neg (by simp [h])]
  exact hQ

/-- **A call for another link changes nothing at all.** -/
theorem wp_receiveByte_invalid {link : UInt8} {peek : Bool}
    {Q : Received → Driver σ → Prop} {F : Fault → Driver σ → Prop} (h : d.engine.dropped = 0)
    (hl : link ≠ d.packet.link ∨ d.packet.isDrained = true) (hF : F .invalidLink d) :
    Attempt.wp cut (receiveByte link peek) Q F d := by
  unfold receiveByte
  rw [Attempt.wp_bind, Attempt.wp_lift]
  refine wp_forgetStalePacket_kept h ?_
  rw [Attempt.wp_bind, Attempt.wp_get]
  simp only [if_pos hl]
  exact hF

theorem wp_receive_invalid {link : UInt8} {n : Nat}
    {Q : Bytes → Driver σ → Prop} {F : Fault → Driver σ → Prop} (h : d.engine.dropped = 0)
    (hl : link ≠ d.packet.link) (hF : F .invalidLink d) :
    Attempt.wp cut (receive link n) Q F d := by
  unfold receive
  rw [Attempt.wp_bind, Attempt.wp_lift]
  refine wp_forgetStalePacket_kept h ?_
  rw [Attempt.wp_bind, Attempt.wp_get]
  simp only [if_pos hl]
  exact hF

/-! ### Calls that move bytes -/

/-- **Between two states of the driver the bytes `c` were read and `w` sent**; nothing was thrown away
and the packet stayed as it was. -/
structure Moves (L : Ledger σ) (d d' : Driver σ) (c w : Bytes) : Prop where
  engine : d.engine.Moves L d'.engine c w
  packet : d'.packet = d.packet

theorem Moves.refl (d : Driver σ) : d.Moves L d [] [] := ⟨.refl _, rfl⟩

theorem Moves.trans (h : d.Moves L d' c w) (h' : d'.Moves L d'' c' w') :
    d.Moves L d'' (c ++ c') (w ++ w') :=
  ⟨h.engine.trans h'.engine, h'.packet.trans h.packet⟩

theorem Moves.still (h : d.Moves L d' c w) (h' : d'.Moves L d'' [] []) : d.Moves L d'' c w :=
  ⟨h.engine.still h'.engine, h'.packet.trans h.packet⟩

variable (L)

theorem wp_record_moves {level : Level} {message : String} {Q : Unit → Driver σ → Prop}
    (hQ : ∀ d', d.Moves L d' [] [] → Q () d') : wp True (record level message) Q d := by
  show wp True (onEngine (record level message)) Q d
  rw [wp_onEngine]
  exact L.wp_record fun e h _ => hQ _ ⟨h, rfl⟩

/-- A log record of a program that may fail. -/
theorem wp_record_moves' {level : Level} {message : String} {Q : Unit → Driver σ → Prop}
    {F : Fault → Driver σ → Prop} (hQ : ∀ d', d.Moves L d' [] [] → Q () d') :
    Attempt.wp True (record level message) Q F d :=
  Attempt.wp_lift.2 (wp_record_moves L hQ)

/-! ### Receiving -/

/-- **The payload bytes `x` of the packet were handed out**, in any number of calls. Either that is all
that was read and the packet goes on behind them, or the packet is over. -/
inductive Hands (L : Ledger σ) (d d' : Driver σ) (x : Bytes) : Prop where
  | took (fresh : d.engine.dropped = 0) (moves : d.engine.Moves L d'.engine x [])
    (packet : d'.packet = { d.packet with remaining := d.packet.remaining - x.length.toUInt16 })
    (le : x.length ≤ d.packet.remaining.toNat)
  | ended {c : Bytes} (fresh : x = [] ∨ d.engine.dropped = 0)
    (moves : L.moves d.engine.device d'.engine.device (x ++ c) [])
    (le : x.length ≤ d.packet.remaining.toNat) (drained : d'.packet.isDrained = true)

namespace Hands

variable {L} {x y : Bytes}

theorem nothing (h0 : d.engine.dropped = 0) (h : d.Moves L d' [] []) : d.Hands L d' [] := by
  have hzero : d.packet.remaining - (0 : Nat).toUInt16 = d.packet.remaining := UInt16.sub_zero _
  refine .took h0 h.engine ?_ (Nat.zero_le _)
  rw [List.length_nil, hzero]
  exact h.packet

theorem gaveUp (h : L.moves d.engine.device d'.engine.device c [])
    (hd : d'.packet.isDrained = true) : d.Hands L d' [] :=
  .ended (.inl rfl) h (Nat.zero_le _) hd

theorem le (h : d.Hands L d' x) : x.length ≤ d.packet.remaining.toNat := by
  cases h <;> assumption

theorem fresh (h : d.Hands L d' x) : x = [] ∨ d.engine.dropped = 0 := by
  cases h with
  | took fresh => exact .inr fresh
  | ended fresh => exact fresh

theorem moves (h : d.Hands L d' x) :
    ∃ c, L.moves d.engine.device d'.engine.device (x ++ c) [] := by
  cases h with
  | took _ moves => exact ⟨[], by rw [List.append_nil]; exact moves.device⟩
  | ended _ moves => exact ⟨_, moves⟩

theorem refl (h : d.engine.dropped = 0 ∨ d.packet.isDrained = true) : d.Hands L d [] := by
  rcases h with h0 | hd
  · exact .nothing h0 (.refl d)
  · exact .gaveUp (L.refl _) hd

theorem fresh_or_drained (h : d.Hands L d' x) :
    d'.engine.dropped = 0 ∨ d'.packet.isDrained = true := by
  cases h with
  | took fresh moves => exact .inl (moves.dropped.trans fresh)
  | ended _ _ _ drained => exact .inr drained

/-- A packet of which all was handed out is drained. -/
theorem drained (h : d.Hands L d' x) (hx : x.length = d.packet.remaining.toNat) :
    d'.packet.isDrained = true := by
  cases h with
  | took _ _ packet le =>
    rw [Packet.isDrained_iff, packet, toNat_sub_toUInt16 le, hx, Nat.sub_self]
  | ended _ _ _ drained => exact drained

/-- A drained packet has nothing to hand out, and stays drained. -/
theorem of_drained (h : d.Hands L d' x) (hd : d.packet.isDrained = true) :
    x = [] ∧ d'.packet.isDrained = true := by
  have hlen : x.length = 0 := by
    have hle := h.le
    rw [Packet.isDrained_iff.1 hd] at hle
    exact Nat.le_zero.1 hle
  refine ⟨List.length_eq_zero_iff.1 hlen, h.drained ?_⟩
  rw [hlen, Packet.isDrained_iff.1 hd]

/-- **What two rows of calls hand out is what they hand out together.** -/
theorem trans (h : d.Hands L d' x) (h' : d'.Hands L d'' y) : d.Hands L d'' (x ++ y) := by
  obtain ⟨c', hc'⟩ := h'.moves
  cases h with
  | ended fresh moves le drained =>
    -- nothing more is handed out of a packet that is over
    obtain ⟨rfl, hd⟩ := h'.of_drained drained
    have := L.trans moves hc'
    rw [List.append_assoc] at this
    rw [List.append_nil]
    exact .ended fresh this le hd
  | took fresh moves packet le =>
    have hle : (x ++ y).length ≤ d.packet.remaining.toNat := by
      have := h'.le
      rw [packet, toNat_sub_toUInt16 le] at this
      rw [List.length_append]
      omega
    cases h' with
    | took _ moves' packet' _ =>
      refine .took fresh (moves.trans moves') ?_ hle
      rw [packet', packet, sub_toUInt16_sub, List.length_append]
    | ended _ moves' _ drained' =>
      have := L.trans moves.device moves'
      rw [← List.append_assoc] at this
      exact .ended (.inr fresh) this hle drained'

end Hands

/-- **A packet is forgotten if bytes were thrown away since it was read.** -/
theorem wp_forgetStalePacket {Q : Unit → Driver σ → Prop} (kept : d.engine.dropped = 0 → Q () d)
    (forgot : ∀ d', 0 < d.engine.dropped → L.moves d.engine.device d'.engine.device [] [] →
      d'.engine.dropped = 0 → d'.packet.isDrained = true → Q () d') :
    wp True forgetStalePacket Q d := by
  rcases Nat.eq_zero_or_pos d.engine.dropped with h0 | hpos
  · exact wp_forgetStalePacket_kept h0 (kept h0)
  unfold forgetStalePacket Engine.takeDropped
  simp only [wp_bind, wp_onEngine, wp_modifyGet, wp_get]
  rw [wp_ite]
  split
  · rw [wp_bind]
    refine wp_record_moves L fun d₁ h₁ => ?_
    exact forgot _ hpos h₁.engine.device h₁.engine.dropped Packet.isDrained_empty
  · rename_i hdrained
    refine forgot _ hpos (L.refl _) rfl ?_
    simpa [hpos] using hdrained

/-- **Looking for a header reads, and takes the packet from the header.** -/
theorem wp_nextPacket_moves {Q : Bool → Driver σ → Prop}
    (hQ : ∀ r c d', d.engine.Moves L d'.engine c [] →
      (r = false → d'.packet = d.packet ∨ d'.packet = {}) → (r = true → c ≠ []) → Q r d') :
    wp True nextPacket Q d := by
  -- a look that finds no frame leaves the packet
  have missed {c : Bytes} {d' : Driver σ} (h : d.engine.Moves L d'.engine c [])
      (hp : d'.packet = d.packet ∨ d'.packet = {}) : Q false d' :=
    hQ false c d' h (fun _ => hp) fun hfound => absurd hfound Bool.false_ne_true
  unfold nextPacket
  rw [wp_bind, wp_onEngine]
  refine L.wp_still L.available fun n e₁ h₁ _ => ?_
  rw [wp_ite]
  split
  · exact missed h₁ (.inl rfl)
  simp only [wp_bind, wp_timeouts, wp_onEngine]
  unfold Engine.skipPast
  rw [wp_bind]
  refine L.wp_awaitTag (fun c s e₂ h₂ _ hs => ?_) fun c e₂ h₂ _ _ => missed (h₁.after h₂) (.inl rfl)
  rw [wp_pure]
  split
  case isFalse => exact missed (h₁.after h₂) (.inl rfl)
  rw [wp_bind, wp_onEngine]
  refine wp_mono (Packet.onlyReads_read (L := L) e₂) ?_
  rintro r e₃ ⟨c', h₃⟩
  have h := (h₁.after h₂).trans h₃
  cases r with
  | some p =>
    dsimp only
    rw [wp_bind]
    refine wp_record_moves L fun d₄ h₄ => ?_
    have hpreamble : c ++ c' ≠ [] := List.append_ne_nil_of_left_ne_nil (Scan.ne_nil_of hs) c'
    exact hQ true _ _ (h.still h₄.engine) (fun hmissed => absurd hmissed.symm Bool.false_ne_true)
      fun _ => hpreamble
  | none =>
    dsimp only
    rw [wp_bind]
    refine wp_record_moves L fun d₄ h₄ => ?_
    exact missed (h.still h₄.engine) (.inr rfl)

/-- Payload that does not arrive is given up with its packet. -/
theorem wp_giveUpPacket {Q : Unit → Driver σ → Prop}
    (hQ : ∀ d', d.engine.Moves L d'.engine [] [] → d'.packet = {} → Q () d') :
    wp True giveUpPacket Q d := by
  unfold giveUpPacket
  rw [wp_bind, wp_get, wp_bind]
  exact wp_record_moves L fun d₁ h₁ => hQ _ h₁.engine rfl

/-- **Payload is read from the front of the packet.** -/
theorem wp_readPayload_moves {timeout : UInt32} {n : Nat} {Q : Bytes → Driver σ → Prop}
    {F : Fault → Driver σ → Prop}
    (hQ : ∀ x d', x.length = n → d.engine.Moves L d'.engine x [] →
      d'.packet = { d.packet with remaining := d.packet.remaining - n.toUInt16 } → Q x d')
    (hF : ∀ f c d', d.engine.Moves L d'.engine c [] → d'.packet = {} → F f d') :
    Attempt.wp True (readPayload timeout n) Q F d := by
  induction n generalizing d Q F with
  | zero =>
    have hzero : d.packet.remaining - (0 : Nat).toUInt16 = d.packet.remaining := UInt16.sub_zero _
    exact hQ [] d rfl (.refl _) (by rw [hzero])
  | succ n ih =>
    rw [readPayload, Attempt.wp_bind, Attempt.wp_lift, wp_onEngine]
    refine L.wp_awaitByte fun r e₁ h₁ => ?_
    cases r with
    | none =>
      simp only [Attempt.wp_bind, Attempt.wp_lift]
      refine wp_giveUpPacket L fun d₂ h₂ hp => ?_
      exact hF _ [] d₂ (h₁.trans h₂) hp
    | some b =>
      simp only [Attempt.wp_bind, Attempt.wp_lift]
      unfold countByte
      rw [wp_modify]
      refine ih (fun x d₂ hx h₂ hp => ?_) fun f c d₂ h₂ hp => hF f (b :: c) d₂ (h₁.trans h₂) hp
      refine hQ (b :: x) d₂ (by simp [hx]) (h₁.trans h₂) (hp.trans ?_)
      have hsub : d.packet.remaining - 1 - n.toUInt16 = d.packet.remaining - (1 + n).toUInt16 :=
        sub_toUInt16_sub _ 1 n
      rw [hsub, Nat.add_comm]

/-- What is read behind the last byte of a packet leaves the packet alone. -/
theorem wp_sawClose_moves {link : UInt8} {Q : Bool → Driver σ → Prop}
    (hQ : ∀ r c d', d.Moves L d' c [] → Q r d') : wp True (sawClose link) Q d := by
  unfold sawClose delay
  rw [wp_bind, wp_onEngine]
  refine L.wp_still (L.delay · 5) fun _ e₁ h₁ _ => ?_
  rw [wp_bind, wp_onEngine]
  refine L.wp_still L.peek fun next e₂ h₂ _ => ?_
  have h : d.engine.Moves L e₂ [] [] := h₁.trans h₂
  dsimp only
  split
  case isFalse => exact hQ false [] _ ⟨h, rfl⟩
  -- the answer is the same whether the notice is complete or not
  have seen : ∀ c d', d.Moves L d' c [] →
      wp True (do logDebug "Connection closed"; return true) Q d' := by
    intro c d' h'
    rw [wp_bind]
    exact wp_record_moves L fun d'' h'' => hQ true c d'' (h'.still h'')
  have missed : ∀ c d', d.Moves L d' c [] → wp True (do
      logError "Tag CLOSED not found"
      logDebug "Connection closed"
      return true) Q d' := by
    intro c d' h'
    rw [wp_bind]
    exact wp_record_moves L fun d'' h'' => seen c d'' (h'.still h'')
  simp only [wp_bind, wp_timeouts, wp_onEngine]
  unfold Engine.skipPast
  rw [wp_bind]
  refine L.wp_awaitTag (fun c s e₃ h₃ _ _ => ?_) fun c e₃ h₃ _ _ => ?_
  · rw [wp_pure]
    split
    · exact missed c _ ⟨h.trans h₃, rfl⟩
    · exact seen c _ ⟨h.trans h₃, rfl⟩
  · exact missed c _ ⟨h.trans h₃, rfl⟩

/-- **A byte that is handed out is the next one of the payload of the link.** If there is none, nothing is
left of a packet for the link. -/
theorem wp_receiveByte_hands {link : UInt8} {peek : Bool} {Q : Received → Driver σ → Prop}
    {F : Fault → Driver σ → Prop}
    (hQ : ∀ r d', link = d.packet.link → d.Hands L d' (if peek then [] else [r.byte]) → Q r d')
    (hF : ∀ f d', d.Hands L d' [] → link ≠ d.packet.link ∨ d'.packet.isDrained = true → F f d') :
    Attempt.wp True (receiveByte link peek) Q F d := by
  unfold receiveByte
  rw [Attempt.wp_bind, Attempt.wp_lift]
  refine wp_forgetStalePacket L (fun h0 => ?_) fun d₁ _ hm _ hdrained => ?_
  case refine_2 =>
    rw [Attempt.wp_bind, Attempt.wp_get]
    simp only [if_pos (Or.inr hdrained : link ≠ d₁.packet.link ∨ d₁.packet.isDrained = true)]
    exact hF _ d₁ (.gaveUp hm hdrained) (.inr hdrained)
  rw [Attempt.wp_bind, Attempt.wp_get]
  dsimp only
  split
  · rename_i hlink
    exact hF _ d (.nothing h0 (.refl d)) hlink
  rename_i hlink
  obtain ⟨hl, hundrained⟩ := not_or.1 hlink
  rw [ne_eq, not_not] at hl
  have hpos : 1 ≤ d.packet.remaining.toNat := by
    rw [Packet.isDrained_iff] at hundrained
    omega
  -- a byte that does not arrive ends its packet
  have gaveUp : ∀ f d₂, d.engine.Moves L d₂.engine [] [] → d₂.packet = {} → F f d₂ := by
    intro f d₂ h₂ hp
    have hdrained : d₂.packet.isDrained = true := hp ▸ Packet.isDrained_empty
    exact hF f d₂ (.gaveUp h₂.device hdrained) (.inr hdrained)
  simp only [Attempt.wp_bind, Attempt.wp_lift, wp_timeouts, wp_onEngine]
  cases peek with
  | true =>
    simp only [if_true]
    refine L.wp_awaitPeek fun r e₁ h₁ => ?_
    cases r with
    | some b => exact hQ _ _ hl (.nothing h0 ⟨h₁, rfl⟩)
    | none =>
      simp only [Attempt.wp_bind, Attempt.wp_lift]
      exact wp_giveUpPacket L fun d₂ h₂ hp => gaveUp _ d₂ (h₁.trans h₂) hp
  | false =>
    simp only [Bool.false_eq_true, if_false]
    refine L.wp_awaitByte fun r e₁ h₁ => ?_
    cases r with
    | none =>
      simp only [Attempt.wp_bind, Attempt.wp_lift]
      exact wp_giveUpPacket L fun d₂ h₂ hp => gaveUp _ d₂ (h₁.trans h₂) hp
    | some b =>
      simp only [Attempt.wp_bind, Attempt.wp_lift, Attempt.wp_get]
      unfold countByte
      rw [wp_modify]
      split
      case isFalse => exact hQ _ _ hl (.took h0 h₁ rfl hpos)
      case isTrue hdrained =>
        rw [Attempt.wp_bind, Attempt.wp_lift]
        refine wp_sawClose_moves L fun closed c d₂ h₂ => ?_
        refine hQ _ d₂ hl (.ended (.inr h0) (h₁.trans h₂.engine).device hpos ?_)
        rw [h₂.packet]
        exact hdrained

/-- **Bytes that are handed out are the next ones of the payload of the link.** -/
theorem wp_receive_hands {link : UInt8} {n : Nat} {Q : Bytes → Driver σ → Prop}
    {F : Fault → Driver σ → Prop}
    (hQ : ∀ x d', (x ≠ [] → link = d.packet.link) →
      (d.engine.dropped = 0 → x.length = min n d.packet.remaining.toNat) → d.Hands L d' x → Q x d')
    (hF : ∀ f d', d.Hands L d' [] → F f d') : Attempt.wp True (receive link n) Q F d := by
  unfold receive
  rw [Attempt.wp_bind, Attempt.wp_lift]
  refine wp_forgetStalePacket L (fun h0 => ?_) fun d₁ hpos hm _ hdrained => ?_
  case refine_2 =>
    have hzero : d₁.packet.remaining.toNat = 0 := Packet.isDrained_iff.1 hdrained
    rw [Attempt.wp_bind, Attempt.wp_get]
    dsimp only
    split
    · exact hF _ d₁ (.gaveUp hm hdrained)
    · rw [Attempt.wp_bind, Attempt.wp_lift, wp_timeouts, hzero, Nat.min_zero]
      exact hQ [] d₁ (by simp) (fun h0 => by omega) (.gaveUp hm hdrained)
  rw [Attempt.wp_bind, Attempt.wp_get]
  dsimp only
  split
  · exact hF _ d (.nothing h0 (.refl d))
  rename_i hl
  rw [ne_eq, not_not] at hl
  rw [Attempt.wp_bind, Attempt.wp_lift, wp_timeouts]
  refine wp_readPayload_moves L (fun x d₁ hx h₁ hp => ?_) fun f c d₁ h₁ hp => ?_
  · rw [← hx] at hp
    refine hQ x d₁ (fun _ => hl) (fun _ => hx) (.took h0 h₁ hp ?_)
    rw [hx]
    exact Nat.min_le_right _ _
  · exact hF f d₁ (.gaveUp h₁.device (by rw [hp]; exact Packet.isDrained_empty))

omit [Device σ] in
theorem wp_pending {link : Option UInt8} {Q : UInt16 → Driver σ → Prop} :
    wp cut (pending link) Q d ↔ Q (if d.packet.isFor link then d.packet.remaining else 0) d := Iff.rfl

/-- **A look leaves a packet alone that is not drained**, whoever asks. -/
theorem wp_available_held {link : Option UInt8} {Q : UInt16 → Driver σ → Prop}
    (h0 : d.engine.dropped = 0) (hundrained : d.packet.isDrained = false)
    (hQ : Q (if d.packet.isFor link then d.packet.remaining else 0) d) :
    wp cut (available link) Q d := by
  unfold available
  rw [wp_bind]
  refine wp_forgetStalePacket_kept h0 ?_
  rw [wp_bind, wp_get, if_neg (Bool.eq_false_iff.1 hundrained)]
  exact hQ

/-- **A look for data takes nothing from a packet that is not drained.** Otherwise it may read the
header of another one. -/
theorem wp_available_hands {link : Option UInt8} {Q : UInt16 → Driver σ → Prop}
    (kept : ∀ n d', d.Hands L d' [] → Q n d')
    (header : ∀ n c d', (d.packet.isDrained = true ∨ 0 < d.engine.dropped) →
      L.moves d.engine.device d'.engine.device c [] → d'.engine.dropped = 0 → Q n d') :
    wp True (available link) Q d := by
  unfold available
  rw [wp_bind]
  have pending : ∀ d', d.Hands L d' [] → wp True (pending link) Q d' := by
    intro d' h'
    unfold Driver.pending
    rw [wp_bind, wp_get, wp_pure]
    exact kept _ d' h'
  -- a packet that is drained or was forgotten makes way for the next one
  have look : ∀ d₁, (d.packet.isDrained = true ∨ 0 < d.engine.dropped) →
      d₁.packet.isDrained = true → d₁.engine.dropped = 0 →
      L.moves d.engine.device d₁.engine.device [] [] →
      wp True (do if ← nextPacket then Driver.pending link else return 0) Q d₁ := by
    intro d₁ hstale hdrained h0 hm
    rw [wp_bind]
    refine wp_nextPacket_moves L fun r c d₂ h₂ hr _ => ?_
    have hmoves : L.moves d.engine.device d₂.engine.device c [] := L.trans hm h₂.device
    cases r with
    | true =>
      unfold Driver.pending
      rw [if_pos rfl, wp_bind, wp_get, wp_pure]
      exact header _ c d₂ hstale hmoves (h₂.dropped.trans h0)
    | false =>
      refine kept 0 d₂ (.gaveUp hmoves ?_)
      rcases hr rfl with hp | hp
      · rw [hp]
        exact hdrained
      · rw [hp]
        exact Packet.isDrained_empty
  refine wp_forgetStalePacket L (fun h0 => ?_) fun d₁ hpos hm h0 hdrained => ?_
  · rw [wp_bind, wp_get]
    split
    · rename_i hdrained
      exact look d (.inl hdrained) hdrained h0 (L.refl _)
    · exact pending d (.nothing h0 (.refl d))
  · rw [wp_bind, wp_get, if_pos hdrained]
    exact look d₁ (.inr hpos) hdrained h0 hm

/-- A read hands out payload to the link of the packet, and to no other. -/
theorem wp_perform_hands {call : Inbound} (hcall : call.isRead = true) :
    wp True call.perform
      (fun a d' => ∃ x, handed call a = x.map (d.packet.link, ·) ∧ d.Hands L d' x) d := by
  cases call with
  | available link => exact absurd hcall Bool.false_ne_true
  | byte link peek =>
    unfold Inbound.perform
    rw [wp_bind, Attempt.wp_run]
    refine wp_receiveByte_hands L (fun r d' hl h => ⟨_, ?_, h⟩) fun f d' h _ => ⟨[], ?_, h⟩
    · cases peek <;> simp [handed, hl]
    · cases peek <;> rfl
  | bytes link n =>
    unfold Inbound.perform
    rw [wp_bind, Attempt.wp_run]
    refine wp_receive_hands L (fun x d' hl _ h => ⟨x, ?_, h⟩) fun f d' h => ⟨[], rfl, h⟩
    cases x with
    | nil => rfl
    | cons b x => rw [← hl (by simp)]; rfl

/-- A call hands out payload of the packet, or it reads a header in place of a packet that is drained
or was lost. -/
theorem wp_perform_any {call : Inbound} :
    wp True call.perform (fun a d' =>
      (∃ x, handed call a = x.map (d.packet.link, ·) ∧ d.Hands L d' x) ∨
        handed call a = [] ∧ (d.packet.isDrained = true ∨ 0 < d.engine.dropped) ∧
          d'.engine.dropped = 0 ∧ ∃ c, L.moves d.engine.device d'.engine.device c []) d := by
  cases call with
  | available link =>
    unfold Inbound.perform
    rw [wp_bind]
    exact wp_available_hands L (fun n d' h => .inl ⟨[], rfl, h⟩) fun n c d' hstale h h0 =>
      .inr ⟨rfl, hstale, h0, c, h⟩
  | byte link peek => exact wp_mono (wp_perform_hands L rfl) fun a d' h => .inl h
  | bytes link n => exact wp_mono (wp_perform_hands L rfl) fun a d' h => .inl h

/-- **A row of reads hands out what comes next on the link**, all of it to the link of the packet, and
no more than the packet has. -/
theorem session_hands {calls : List Inbound} (hcalls : ∀ call ∈ calls, call.isRead = true)
    (h : d.engine.dropped = 0 ∨ d.packet.isDrained = true) :
    wp True (Inbound.session calls)
      (fun log d' => ∃ x, delivered log = x.map (d.packet.link, ·) ∧ d.Hands L d' x) d := by
  induction calls generalizing d with
  | nil => exact ⟨[], rfl, .refl h⟩
  | cons call calls ih =>
    unfold Inbound.session
    rw [wp_bind]
    refine wp_mono (wp_perform_hands L (hcalls call List.mem_cons_self)) ?_
    rintro a d₁ ⟨x, hx, h₁⟩
    have hcalls' : ∀ call ∈ calls, call.isRead = true :=
      fun c hc => hcalls c (List.mem_cons_of_mem _ hc)
    rw [wp_bind]
    refine wp_mono (ih hcalls' h₁.fresh_or_drained) ?_
    rintro log d₂ ⟨y, hy, h₂⟩
    refine ⟨x ++ y, ?_, h₁.trans h₂⟩
    have hlog : delivered ((call, a) :: log) = handed call a ++ delivered log := rfl
    rw [hlog, hx, hy, List.map_append]
    cases h₁ with
    | took _ _ packet => rw [packet]
    | ended _ _ _ drained => rw [(h₂.of_drained drained).1, List.map_nil, List.map_nil]

end Driver

end EspWifi
