import EspWifi.Proofs.Modem.Header
import EspWifi.Proofs.Modem.Inbox

/-!
# Inbound delivery

The driver on a settled bench whose stream is a row of frames answers every call as the inbox of these
frames does.

* `Driver.AtPayload`: unread payload comes first in the stream; `Driver.AtPayload.wp_receiveByte`,
  `Driver.AtPayload.wp_receive`: reads of it.
* `Driver.wp_available_frame`: a look that finds a frame.
* `Shows`: what the driver and its stream look like when it has read as far as an inbox.
* `Shows.perform`: one call keeps it and gives the answer of the inbox.
* `inbound_delivery`: **the payload is handed out in order, each byte to its own link**, and the
  packet always describes the frame that was parsed last.
-/

namespace EspWifi

open Run

variable {cut : Prop}

namespace Frame

/-- A link has one digit. -/
theorem decimal_link (link : Fin 4) : decimal link = [ascii '0' + link.val.toUInt8] := by
  rw [decimal_eq]
  revert link
  decide

theorem trailer_eq (link : Fin 4) :
    trailer link = [ascii '0' + link.val.toUInt8] ++ ascii ',' :: utf8 "CLOSED" ++ utf8 lineEnd := by
  rw [trailer, decimal_link]
  rfl

theorem not_mem_trailer (link : Fin 4) : ascii '+' ∉ trailer link := by
  rw [trailer_eq]
  revert link
  decide

theorem length_trailer (link : Fin 4) : (trailer link).length = 10 := by
  rw [trailer_eq]
  rfl

/-- A frame begins with a line end or with its header. -/
theorem head_wire (frames : List Frame) :
    ∀ b ∈ (frames.flatMap wire).head?, b = ascii '\r' ∨ b = ascii '+' := by
  cases frames with
  | nil => simp
  | cons f fs =>
    intro b hb
    have hend : utf8 lineEnd = [ascii '\r', ascii '\n'] := rfl
    have hpre : utf8 packetPreamble = ascii '+' :: utf8 "IPD," := rfl
    rw [List.flatMap_cons, wire, gap, hpre, hend] at hb
    cases hs : f.spaced <;> simp [hs] at hb <;> simp [hb]

/-- What a frame begins with is not the notice of a close. -/
theorem no_notice {b : UInt8} (h : b = ascii '\r' ∨ b = ascii '+') (link : Fin 4) :
    b ≠ ascii '0' + link.val.toUInt8 ∧ b ≠ ascii ',' := by
  obtain rfl | rfl := h <;> revert link <;> decide

end Frame

/-- What can stand between the payload of the last frame that was parsed and the next frame. -/
inductive Inbox.Behind (s : Inbox) : Bytes → Prop where
  | trailer {f : Frame} (hf : s.current = some f) (hc : s.closing = true) :
    Behind s (Frame.trailer f.link)
  | nothing (hc : s.closing = false) : Behind s []
  | lineEnd (hc : s.closing = false) : Behind s (utf8 lineEnd)

namespace Inbox.Behind

variable {s : Inbox} {t : Bytes}

theorem not_mem (h : s.Behind t) : ascii '+' ∉ t := by
  cases h with
  | trailer => exact Frame.not_mem_trailer _
  | nothing => simp
  | lineEnd => decide

theorem length_le (h : s.Behind t) : t.length ≤ 10 := by
  cases h with
  | trailer => exact (Frame.length_trailer _).le
  | nothing => simp
  | lineEnd => decide

/-- After the payload of a frame comes what the frame says after it. -/
theorem next {f : Frame} {fs : List Frame} (h : s.waiting = f :: fs) : s.next.Behind f.tail := by
  have hc : s.next.closing = f.closed := by
    unfold closing
    rw [current_next h]
    simp [Inbox.next, h]
  unfold Frame.tail
  cases hf : f.closed with
  | true => exact .trailer (current_next h) (hc.trans hf)
  | false => exact .nothing (hc.trans hf)

/-- What stands there without a notice does not look like one. -/
theorem no_notice (h : s.Behind t) (hc : s.closing = false) (link : Fin 4) :
    ∀ x ∈ (t ++ s.waiting.flatMap Frame.wire).head?,
      x ≠ ascii '0' + link.val.toUInt8 ∧ x ≠ ascii ',' := by
  intro x hx
  have hhead : x = ascii '\r' ∨ x = ascii '+' := by
    cases h with
    | trailer hf hc' => exact absurd hc' (by simp [hc])
    | nothing => exact Frame.head_wire _ x hx
    | lineEnd => exact .inl (Option.some.inj hx).symm
  exact Frame.no_notice hhead link

/-- A notice that is due is the one of the current frame. -/
theorem eq_trailer {f : Frame} (h : s.Behind t) (hc : s.closing = true)
    (hf : s.current = some f) : t = Frame.trailer f.link := by
  cases h with
  | trailer hf' => rw [Option.some.inj (hf.symm.trans hf')]
  | nothing hc' => exact absurd hc (by simp [hc'])
  | lineEnd hc' => exact absurd hc (by simp [hc'])

end Inbox.Behind

/-- **The driver has read as far as the inbox `s`.** Its packet is that of the inbox, nothing was
thrown away, and the stream holds the unread payload, what stands behind it and the other frames. -/
structure Shows (d : Driver Bench) (s : Inbox) : Prop where
  packet : d.packet = s.packet
  timeouts : d.engine.timeouts = {}
  dropped : d.engine.dropped = 0
  stream : ∃ t, s.Behind t ∧
    d.engine.device.Holds (s.unread ++ t ++ s.waiting.flatMap Frame.wire)

namespace Driver

variable {d : Driver Bench} {w : Bytes}

theorem wp_record {Q : Unit → Driver Bench → Prop} {level : Level} {message : String}
    (h : d.engine.device.Holds w)
    (hQ : ∀ b : Bench, b.Holds w →
      Q () { d with engine := { d.engine with device := b } }) :
    wp cut (record level message) Q d := by
  show wp cut (onEngine (record level message)) Q d
  rw [wp_onEngine]
  exact Engine.wp_record h fun b hb _ => hQ b hb

/-- **A header that waits is read**, past what comes before it. -/
theorem wp_nextPacket_header {pre rest : Bytes} {link length : Nat}
    {sender : Option (Ipv4 × UInt16)} {Q : Bool → Driver Bench → Prop}
    (h : d.engine.device.Holds
      (pre ++ utf8 packetPreamble ++ Frame.fields link length sender ++ rest))
    (hpre : ascii '+' ∉ pre) (htime : pre.length + 5 < d.engine.timeouts.field.toNat)
    (hlink : link < 256) (hlength : length < 65536)
    (hQ : ∀ (b : Bench) (window : Window windowSize), b.Holds rest →
      Q true { d with
        engine := { d.engine with device := b, window := window }
        packet :=
          ⟨link.toUInt8, length.toUInt16, sender.map Prod.fst, sender.elim 0 Prod.snd⟩ }) :
    wp cut nextPacket Q d := by
  have hpreamble : utf8 packetPreamble = ascii '+' :: utf8 "IPD," := rfl
  rw [hpreamble, List.append_assoc (pre ++ _)] at h
  unfold nextPacket
  rw [wp_bind, wp_onEngine, wp_onDevice, h.available, wp_ite, if_neg (by simp)]
  simp only [wp_bind, wp_timeouts, wp_onEngine]
  rw [hpreamble]
  -- the preamble is the first plus sign that waits, and it is found in time
  refine Engine.wp_skipPast_found h hpre (by decide) htime fun b window hb => ?_
  rw [if_pos rfl, wp_bind, wp_onEngine]
  refine Packet.wp_read hb hlink hlength fun b' hb' => ?_
  rw [wp_bind]
  refine wp_record hb' fun b'' hb'' => ?_
  rw [wp_bind, wp_modify, wp_pure]
  exact hQ b'' window hb''

theorem gap_short (f : Frame) : ascii '+' ∉ f.gap ∧ f.gap.length ≤ 2 := by
  unfold Frame.gap
  cases f.spaced <;> decide

/-- **A drained packet makes way for a frame that waits**, whoever asks. -/
theorem wp_available_frame {f : Frame} {tail : Bytes} {link : Option UInt8}
    {Q : UInt16 → Driver Bench → Prop} (hdrained : d.packet.isDrained = true)
    (h : d.engine.device.Holds (f.opening ++ f.payload ++ tail))
    (hfield : 7 < d.engine.timeouts.field.toNat)
    (hQ : ∀ (b : Bench) (window : Window windowSize), b.Holds (f.payload ++ tail) →
      Q (if (f.packet f.payload.length).isFor link then f.payload.length.toUInt16 else 0)
        { d with
          engine := { d.engine with device := b, window := window, dropped := 0 }
          packet := f.packet f.payload.length }) :
    wp cut (available link) Q d := by
  obtain ⟨hgap, hshort⟩ := gap_short f
  rw [Frame.opening, List.append_assoc] at h
  unfold available
  rw [wp_bind]
  refine wp_forgetStalePacket_drained hdrained ?_
  rw [wp_bind, wp_get]
  simp only [hdrained, if_true]
  rw [wp_bind]
  refine wp_nextPacket_header h hgap ?_ (by omega) f.payload_lt fun b window hb => ?_
  · show f.gap.length + 5 < d.engine.timeouts.field.toNat
    omega
  rw [if_pos rfl, wp_pending]
  exact hQ b window hb

/-- **Without a header, what waits is thrown away.** -/
theorem wp_nextPacket_missing {Q : Bool → Driver Bench → Prop} (h : d.engine.device.Holds w)
    (hw : ascii '+' ∉ w) (htime : w.length + 1 < d.engine.timeouts.field.toNat)
    (hQ : ∀ (b : Bench) (window : Window windowSize), b.Holds [] →
      Q false { d with engine := { d.engine with device := b, window := window } }) :
    wp cut nextPacket Q d := by
  have hpreamble : utf8 packetPreamble = ascii '+' :: utf8 "IPD," := rfl
  unfold nextPacket
  rw [wp_bind, wp_onEngine, wp_onDevice, h.available, wp_ite]
  split
  · rename_i hnone
    obtain rfl : w = [] := List.length_eq_zero_iff.1 (by omega)
    exact hQ _ _ h
  · simp only [wp_bind, wp_timeouts, wp_onEngine]
    rw [hpreamble]
    exact Engine.wp_skipPast_missing h hw htime hQ

/-- **When nothing waits, nothing is found.** -/
theorem wp_available_nothing {link : Option UInt8} {Q : UInt16 → Driver Bench → Prop}
    (hdrained : d.packet.isDrained = true) (h : d.engine.device.Holds [])
    (hfield : 1 < d.engine.timeouts.field.toNat)
    (hQ : ∀ (b : Bench) (window : Window windowSize), b.Holds [] →
      Q 0 { d with engine := { d.engine with device := b, window := window, dropped := 0 } }) :
    wp cut (available link) Q d := by
  unfold available
  rw [wp_bind]
  refine wp_forgetStalePacket_drained hdrained ?_
  rw [wp_bind, wp_get]
  simp only [hdrained, if_true]
  rw [wp_bind]
  exact wp_nextPacket_missing h List.not_mem_nil hfield hQ

/-- Without another frame, what waits is thrown away. -/
theorem wp_nextPacket_nil {s : Inbox} {Q : Bool → Driver Bench → Prop} (h : Shows d s)
    (hu : s.unread = []) (hw : s.waiting = []) (hQ : ∀ d' r, Shows d' s.next → Q r d') :
    wp cut nextPacket Q d := by
  obtain ⟨t, ht, hstream⟩ := h.stream
  have htime : d.engine.timeouts.field.toNat = 1000 := by rw [h.timeouts]; rfl
  have hlen := ht.length_le
  rw [hu, hw, List.nil_append, List.flatMap_nil, List.append_nil] at hstream
  refine wp_nextPacket_missing hstream ht.not_mem (by omega) fun b window hb => hQ _ _ ?_
  -- nothing is left of what stood behind the last frame
  have hn : s.next = { s with noticed := true } := by simp [Inbox.next, hw]
  have hun : { s with noticed := true }.unread = [] := hu
  rw [hn]
  refine ⟨h.packet, h.timeouts, h.dropped, [], .nothing (by simp [Inbox.closing]), ?_⟩
  rw [hun, hw]
  exact hb

/-- **The next header is read**, past what is left behind the frame before it. -/
theorem wp_nextPacket_cons {s : Inbox} {f : Frame} {fs : List Frame}
    {Q : Bool → Driver Bench → Prop} (h : Shows d s) (hu : s.unread = [])
    (hw : s.waiting = f :: fs) (hQ : ∀ d', Shows d' s.next → Q true d') :
    wp cut nextPacket Q d := by
  obtain ⟨t, ht, hstream⟩ := h.stream
  have htime : d.engine.timeouts.field.toNat = 1000 := by rw [h.timeouts]; rfl
  have hlen := ht.length_le
  have hgap := gap_short f
  have hwire : t ++ (f :: fs).flatMap Frame.wire = t ++ f.gap ++ utf8 packetPreamble ++
      Frame.fields f.link f.payload.length f.sender ++
        (f.payload ++ f.tail ++ fs.flatMap Frame.wire) := by
    simp [Frame.wire]
  rw [hu, hw, List.nil_append, hwire] at hstream
  refine wp_nextPacket_header hstream (by simp [ht.not_mem, hgap.1]) ?_ (by omega) f.payload_lt
    fun b window hb => ?_
  · rw [List.length_append]
    omega
  have hwaiting : s.next.waiting = fs := by simp [Inbox.next, hw]
  refine hQ _ ⟨?_, h.timeouts, h.dropped, f.tail, .next hw, ?_⟩
  · rw [Inbox.packet_next hw]
    rfl
  · rw [Inbox.unread_next hw, hwaiting]
    exact hb

/-- The driver goes on to the next frame if there is one. -/
theorem wp_nextPacket {s : Inbox} {Q : Bool → Driver Bench → Prop} (h : Shows d s)
    (hu : s.unread = []) (hQ : ∀ d' r, Shows d' s.next → (r = false → s.waiting = []) → Q r d') :
    wp cut nextPacket Q d := by
  cases hw : s.waiting with
  | nil => exact wp_nextPacket_nil h hu hw fun d' r h' => hQ d' r h' fun _ => hw
  | cons f fs => exact wp_nextPacket_cons h hu hw fun d' h' => hQ d' true h' (by simp)

/-- The driver after it has read `n` more bytes of its packet and left the bench as `b`. -/
def took (d : Driver Bench) (b : Bench) (window : Window windowSize) (n : Nat) : Driver Bench :=
  { d with
    engine := { d.engine with device := b, window := window }
    packet := { d.packet with remaining := d.packet.remaining - n.toUInt16 } }

theorem wp_countByte {b : Bench} {Q : Unit → Driver Bench → Prop}
    (hQ : Q () (d.took b d.engine.window 1)) :
    wp cut countByte Q { d with engine := { d.engine with device := b } } := hQ

/-- **Payload that waits is read byte by byte.** -/
theorem wp_readPayload {timeout : UInt32} {u rest : Bytes} {Q : Bytes → Driver Bench → Prop}
    {F : Fault → Driver Bench → Prop} (h : d.engine.device.Holds (u ++ rest))
    (hQ : ∀ b : Bench, b.Holds rest → Q u (d.took b d.engine.window u.length)) :
    Attempt.wp cut (readPayload timeout u.length) Q F d := by
  induction u generalizing d Q with
  | nil =>
    have hzero : d.took d.engine.device d.engine.window 0 = d := by
      have : d.packet.remaining - (0 : Nat).toUInt16 = d.packet.remaining := UInt16.sub_zero _
      rw [took, this]
    rw [List.length_nil, readPayload, Attempt.wp_pure, ← hzero]
    exact hQ _ h
  | cons x u ih =>
    rw [List.length_cons, readPayload, Attempt.wp_bind, Attempt.wp_lift, wp_onEngine]
    refine Engine.wp_awaitByte h fun b hb => ?_
    simp only [List.cons_append, List.head?_cons, Attempt.wp_bind, Attempt.wp_lift]
    refine wp_countByte (ih hb fun b' hb' => ?_)
    have hnext : (d.took b d.engine.window 1).took b' d.engine.window u.length =
        d.took b' d.engine.window (x :: u).length := by
      simp only [took, sub_toUInt16_sub, List.length_cons, Nat.add_comm]
    have := hQ b' hb'
    rw [← hnext] at this
    exact this

/-- **The payload `u` is unread and comes first in the stream**, with `rest` behind it. -/
structure AtPayload (d : Driver Bench) (u rest : Bytes) : Prop where
  remaining : d.packet.remaining.toNat = u.length
  /-- A packet with unread payload has lost none of it. -/
  dropped : u ≠ [] → d.engine.dropped = 0
  stream : d.engine.device.Holds (u ++ rest)

namespace AtPayload

variable {u rest : Bytes} {link x : UInt8}

theorem isDrained_iff (h : d.AtPayload u rest) : d.packet.isDrained = true ↔ u = [] := by
  rw [Packet.isDrained_iff, h.remaining, List.length_eq_zero_iff]

theorem undrained (h : d.AtPayload u rest) (hu : u ≠ []) : d.packet.isDrained = false :=
  Bool.eq_false_iff.2 fun hdrained => hu (h.isDrained_iff.1 hdrained)

theorem remaining_ne_zero (h : d.AtPayload u rest) (hu : u ≠ []) : d.packet.remaining ≠ 0 := by
  have hundrained := h.undrained hu
  exact beq_eq_false_iff_ne.1 hundrained

/-- What was taken is no longer unread. -/
theorem took (h : d.AtPayload u rest) {b : Bench} {n : Nat} (hn : n ≤ u.length)
    (hb : b.Holds (u.drop n ++ rest)) : (d.took b d.engine.window n).AtPayload (u.drop n) rest where
  remaining := by
    have hremaining := h.remaining
    show (d.packet.remaining - n.toUInt16).toNat = (u.drop n).length
    rw [toNat_sub_toUInt16 (by omega), hremaining, List.length_drop]
  dropped := by
    intro hrest
    refine h.dropped ?_
    rintro rfl
    exact hrest List.drop_nil
  stream := hb

/-- **A look for the link of the packet finds what is unread**, and changes nothing. -/
theorem wp_available_own (h : d.AtPayload u rest) (hu : u ≠ []) (hlink : d.packet.link = link)
    {Q : UInt16 → Driver Bench → Prop} (hQ : d.packet.remaining ≠ 0 → Q d.packet.remaining d) :
    wp cut (available (some link)) Q d := by
  refine wp_available_held (h.dropped hu) (h.undrained hu) ?_
  rw [if_pos (Packet.isFor_iff.2 hlink)]
  exact hQ (h.remaining_ne_zero hu)

/-- **A look for another link finds nothing**, and changes nothing. -/
theorem wp_available_other (h : d.AtPayload u rest) (hu : u ≠ []) (hlink : d.packet.link ≠ link)
    {Q : UInt16 → Driver Bench → Prop} (hQ : Q 0 d) : wp cut (available (some link)) Q d := by
  refine wp_available_held (h.dropped hu) (h.undrained hu) ?_
  rwa [if_neg (mt Packet.isFor_iff.1 hlink)]

/-- **The first byte is read**, if the packet is for the link, and behind the last one of the packet a
notice is looked for. -/
theorem wp_receiveByte (h : d.AtPayload (x :: u) rest) (hlink : d.packet.link = link)
    {Q : Received → Driver Bench → Prop} {F : Fault → Driver Bench → Prop}
    (more : u ≠ [] → ∀ b, (d.took b d.engine.window 1).AtPayload u rest →
      Q ⟨x, false⟩ (d.took b d.engine.window 1))
    (last : u = [] → ∀ b, (d.took b d.engine.window 1).AtPayload u rest →
      wp cut (sawClose link) (fun closed => Q ⟨x, closed⟩) (d.took b d.engine.window 1)) :
    Attempt.wp cut (receiveByte link false) Q F d := by
  have hne : x :: u ≠ [] := List.cons_ne_nil x u
  have hvalid : ¬ (link ≠ d.packet.link ∨ d.packet.isDrained = true) := by
    rw [hlink, h.undrained hne]
    simp
  unfold receiveByte
  rw [Attempt.wp_bind, Attempt.wp_lift]
  refine wp_forgetStalePacket_kept (h.dropped hne) ?_
  rw [Attempt.wp_bind, Attempt.wp_get]
  simp only [if_neg hvalid, Attempt.wp_bind, Attempt.wp_lift, wp_onEngine, Bool.false_eq_true, if_false]
  refine Engine.wp_awaitByte h.stream fun b hb => ?_
  have htook : (d.took b d.engine.window 1).AtPayload u rest := h.took (Nat.le_add_left 1 _) hb
  simp only [List.cons_append, List.head?_cons, Attempt.wp_bind, Attempt.wp_lift]
  refine wp_countByte ?_
  rw [Attempt.wp_get]
  by_cases hu : u = []
  · rw [if_pos (htook.isDrained_iff.2 hu), Attempt.wp_bind, Attempt.wp_lift]
    exact last hu b htook
  · rw [if_neg (mt htook.isDrained_iff.1 hu), Attempt.wp_pure]
    exact more hu b htook

/-- **Many bytes are read at once**, if the packet is for the link, and nothing is looked for behind them. -/
theorem wp_receive (h : d.AtPayload u rest) (h0 : d.engine.dropped = 0) (hlink : d.packet.link = link)
    {n : Nat} {Q : Bytes → Driver Bench → Prop} {F : Fault → Driver Bench → Prop}
    (hQ : ∀ b, (d.took b d.engine.window (min n u.length)).AtPayload (u.drop n) rest →
      Q (u.take n) (d.took b d.engine.window (min n u.length))) :
    Attempt.wp cut (receive link n) Q F d := by
  have hmin : min n d.packet.remaining.toNat = (u.take n).length := by
    rw [h.remaining, List.length_take]
  have hdrop : u.drop (min n u.length) = u.drop n := List.drop_eq_drop_min.symm
  have hstream := h.stream
  rw [← List.take_append_drop n u, List.append_assoc] at hstream
  unfold receive
  rw [Attempt.wp_bind, Attempt.wp_lift]
  refine wp_forgetStalePacket_kept h0 ?_
  rw [Attempt.wp_bind, Attempt.wp_get]
  simp only [if_neg (not_not_intro hlink.symm), Attempt.wp_bind, Attempt.wp_lift, wp_timeouts, hmin]
  refine wp_readPayload hstream fun b hb => ?_
  rw [List.length_take]
  refine hQ b ?_
  rw [← hdrop] at hb ⊢
  exact h.took (Nat.min_le_right _ _) hb

end AtPayload

/-- **A notice of a close is seen, and taken up to its end**, with or without the link before it. -/
theorem wp_sawClose_notice {link : Fin 4} {mark rest : Bytes} {Q : Bool → Driver Bench → Prop}
    (hmark : mark = [] ∨ mark = decimal link)
    (h : d.engine.device.Holds (mark ++ utf8 closedTrailer ++ rest))
    (htime : 8 < d.engine.timeouts.closed.toNat)
    (hQ : ∀ (b : Bench) (window : Window windowSize), b.Holds rest →
      Q true { d with engine := { d.engine with device := b, window := window } }) :
    wp cut (sawClose link.val.toUInt8) Q d := by
  have htrailer : utf8 closedTrailer = ascii ',' :: utf8 "CLOSED" := rfl
  have hdigit : ∀ link : Fin 4, ascii ',' ≠ ascii '0' + link.val.toUInt8 := by decide
  rw [Frame.decimal_link] at hmark
  have hne : ascii ',' ∉ mark ∧ mark.length ≤ 1 := by
    rcases hmark with rfl | rfl
    · simp
    · simp [hdigit]
  rw [htrailer] at h
  unfold sawClose delay
  rw [wp_bind, wp_onEngine, wp_onDevice]
  refine h.delay fun b hb => ?_
  rw [wp_bind, wp_onEngine, wp_onDevice, hb.peek, if_pos (by rcases hmark with rfl | rfl <;> simp)]
  simp only [wp_bind, wp_timeouts, wp_onEngine]
  rw [htrailer]
  refine Engine.wp_skipPast_found hb hne.1 (by decide) ?_ fun b' window hb' => ?_
  · have : (ascii ',' :: utf8 "CLOSED").length = 7 := rfl
    omega
  simp only [Bool.not_true, Bool.false_eq_true, if_false, wp_bind]
  refine wp_record hb' fun b'' hb'' => ?_
  rw [wp_pure]
  exact hQ b'' window hb''

/-- What does not look like a notice is left where it is. -/
theorem wp_sawClose_none {link : UInt8} {Q : Bool → Driver Bench → Prop} (h : d.engine.device.Holds w)
    (hno : ∀ x ∈ w.head?, x ≠ ascii '0' + link ∧ x ≠ ascii ',')
    (hQ : ∀ b : Bench, b.Holds w → Q false { d with engine := { d.engine with device := b } }) :
    wp cut (sawClose link) Q d := by
  unfold sawClose delay
  rw [wp_bind, wp_onEngine, wp_onDevice]
  refine h.delay fun b hb => ?_
  rw [wp_bind, wp_onEngine, wp_onDevice, hb.peek, if_neg, wp_pure]
  · exact hQ b hb
  · rintro (hx | hx)
    · exact (hno _ hx).1 rfl
    · exact (hno _ hx).2 rfl

/-- **The notice of a close is seen, and taken, when it stands behind the payload.** -/
theorem wp_sawClose {s : Inbox} {f : Frame} {t : Bytes} {Q : Bool → Driver Bench → Prop}
    (hf : s.current = some f) (ht : s.Behind t)
    (h : d.engine.device.Holds (t ++ s.waiting.flatMap Frame.wire))
    (htimeouts : d.engine.timeouts = {})
    (hQ : ∀ (b : Bench) (window : Window windowSize) (t' : Bytes),
      { s with noticed := s.noticed || s.closing }.Behind t' →
      b.Holds (t' ++ s.waiting.flatMap Frame.wire) →
      Q s.closing { d with engine := { d.engine with device := b, window := window } }) :
    wp cut (sawClose f.link.val.toUInt8) Q d := by
  cases hc : s.closing with
  | false =>
    have hno := ht.no_notice hc f.link
    rw [hc, Bool.or_false] at hQ
    exact wp_sawClose_none h hno fun b hb => hQ b _ t ht hb
  | true =>
    have htime : d.engine.timeouts.closed.toNat = 500 := by rw [htimeouts]; rfl
    rw [ht.eq_trailer hc hf, Frame.trailer, List.append_assoc] at h
    rw [hc] at hQ
    exact wp_sawClose_notice (.inr rfl) h (by omega) fun b window hb =>
      hQ b window (utf8 lineEnd) (.lineEnd (by simp [Inbox.closing])) hb

end Driver

namespace Shows

variable {d : Driver Bench} {s : Inbox}

/-- Payload that was read is payload that was taken. -/
theorem taken (h : Shows d s) {n : Nat} (hn : n ≤ s.unread.length) {b : Bench}
    {window : Window windowSize} {t : Bytes} {noticed : Bool}
    (ht : { s with noticed := noticed }.Behind t)
    (hb : b.Holds (s.unread.drop n ++ t ++ s.waiting.flatMap Frame.wire)) :
    Shows (d.took b window n) { s with taken := s.taken + n, noticed := noticed } := by
  refine ⟨?_, h.timeouts, h.dropped, t, ?_, ?_⟩
  · have hsub : s.unread.length.toUInt16 - n.toUInt16 = (s.unread.length - n).toUInt16 :=
      (UInt16.ofNat_sub hn).symm
    rw [Inbox.packet_take, List.length_drop, ← hsub, ← Inbox.remaining_packet, ← h.packet]
    rfl
  · cases ht with
    | trailer hf hc => exact .trailer (s := { s with taken := s.taken + n, noticed }) hf hc
    | nothing hc => exact .nothing hc
    | lineEnd hc => exact .lineEnd hc
  · rw [Inbox.unread_take]
    exact hb

theorem isDrained (h : Shows d s) : d.packet.isDrained = s.unread.isEmpty := by
  rw [h.packet, Inbox.isDrained_packet]

theorem atPayload (h : Shows d s) {t : Bytes}
    (hstream : d.engine.device.Holds (s.unread ++ t ++ s.waiting.flatMap Frame.wire)) :
    d.AtPayload s.unread (t ++ s.waiting.flatMap Frame.wire) where
  remaining := by rw [h.packet, Inbox.toNat_remaining_packet]
  dropped _ := h.dropped
  stream := by rwa [← List.append_assoc]

theorem available (h : Shows d s) {link : Option UInt8} {Q : UInt16 → Driver Bench → Prop}
    (hQ : ∀ d', Shows d' (if s.unread.isEmpty then s.next else s) →
      Q ((if s.unread.isEmpty then s.next else s).pending link) d') :
    wp cut (Driver.available link) Q d := by
  have pending : ∀ {d : Driver Bench} {s : Inbox}, Shows d s → Q (s.pending link) d →
      wp cut (Driver.pending link) Q d := by
    intro d s h hs
    unfold Driver.pending
    rw [wp_bind, wp_get, wp_pure, h.packet]
    exact hs
  unfold Driver.available
  rw [wp_bind]
  refine Driver.wp_forgetStalePacket_kept h.dropped ?_
  rw [wp_bind, wp_get, h.isDrained]
  cases hu : s.unread.isEmpty with
  | false =>
    rw [hu] at hQ
    exact pending h (hQ d h)
  | true =>
    rw [hu] at hQ
    rw [if_pos rfl, wp_bind]
    refine Driver.wp_nextPacket h (List.isEmpty_iff.1 hu) fun d' r h' hr => ?_
    cases r with
    | true => exact pending h' (hQ d' h')
    | false =>
      have hw := hr rfl
      have hnone : s.next.pending link = 0 := by
        have hun : s.next.unread = [] := by
          have : s.next = { s with noticed := true } := by simp [Inbox.next, hw]
          rw [this]
          exact List.isEmpty_iff.1 hu
        unfold Inbox.pending
        rw [Inbox.remaining_packet, hun]
        exact ite_self _
      have := hQ d' h'
      rw [if_pos rfl, hnone] at this
      exact this

theorem receiveByte (h : Shows d s) {link : UInt8} {peek : Bool}
    {Q : Except Fault Driver.Received → Driver Bench → Prop}
    (hQ : ∀ d' r s', s.step (.byte link peek) = (.byte r, s') → Shows d' s' → Q r d') :
    wp cut (Driver.receiveByte link peek).run Q d := by
  rw [Attempt.wp_run]
  cases hu : s.unread with
  | nil =>
    have hd : d.packet.isDrained = true := by rw [h.isDrained, hu]; rfl
    exact Driver.wp_receiveByte_invalid h.dropped (.inr hd)
      (hQ d _ s (Inbox.step_byte_invalid (.inr hu)) h)
  | cons x rest =>
    by_cases hl : link = s.packet.link
    case neg =>
      exact Driver.wp_receiveByte_invalid h.dropped (.inl (by rwa [h.packet]))
        (hQ d _ s (Inbox.step_byte_invalid (.inl hl)) h)
    subst hl
    obtain ⟨t, ht, hstream⟩ := h.stream
    obtain ⟨f, hf⟩ : ∃ f, s.current = some f := by
      cases hc : s.current with
      | none => simp [Inbox.unread, hc] at hu
      | some f => exact ⟨f, rfl⟩
    have hlink : s.packet.link = f.link.val.toUInt8 := by
      rw [Inbox.packet, hf]
      rfl
    have hpayload : d.AtPayload s.unread (t ++ s.waiting.flatMap Frame.wire) := h.atPayload hstream
    rw [hu] at hpayload
    cases peek with
    | true =>
      have hd : ¬ (s.packet.link ≠ d.packet.link ∨ d.packet.isDrained = true) := by
        rw [hpayload.undrained (List.cons_ne_nil x rest), h.packet]
        simp
      unfold Driver.receiveByte
      rw [Attempt.wp_bind, Attempt.wp_lift]
      refine Driver.wp_forgetStalePacket_kept h.dropped ?_
      rw [Attempt.wp_bind, Attempt.wp_get]
      simp only [if_neg hd, Attempt.wp_bind, Attempt.wp_lift, wp_onEngine, if_true]
      refine Engine.wp_awaitPeek hpayload.stream fun b hb => ?_
      refine hQ _ _ s (Inbox.step_peek hu) ⟨h.packet, h.timeouts, h.dropped, t, ht, ?_⟩
      rw [hu, List.append_assoc]
      exact hb
    | false =>
      have hn : 1 ≤ s.unread.length := by rw [hu]; exact Nat.succ_pos _
      have hdrop : s.unread.drop 1 = rest := by rw [hu]; rfl
      -- only the last byte of a packet is followed by a look for the notice
      refine hpayload.wp_receiveByte (h.packet ▸ rfl) (fun hmore b hb => ?_) fun hlast b hb => ?_
      · have hstream := hb.stream
        rw [← List.append_assoc, ← hdrop] at hstream
        refine hQ _ _ _ ((Inbox.step_read hu).trans ?_) (h.taken hn ht hstream)
        rw [List.isEmpty_eq_false_iff.2 hmore, Bool.false_and, Bool.or_false]
      · subst hlast
        rw [hlink]
        refine Driver.wp_sawClose hf ht hb.stream h.timeouts fun b' window t' ht' hb' => ?_
        refine hQ _ _ _ ((Inbox.step_read hu).trans ?_) (h.taken hn ht' (by rw [hdrop]; exact hb'))
        rw [List.isEmpty_nil, Bool.true_and]

theorem receive (h : Shows d s) {link : UInt8} {n : Nat}
    {Q : Except Fault Bytes → Driver Bench → Prop}
    (hQ : ∀ d' r s', s.step (.bytes link n) = (.bytes r, s') → Shows d' s' → Q r d') :
    wp cut (Driver.receive link n).run Q d := by
  rw [Attempt.wp_run]
  by_cases hl : link = s.packet.link
  case neg =>
    refine Driver.wp_receive_invalid h.dropped (by rwa [h.packet]) (hQ d _ s ?_ h)
    simp [Inbox.step, hl]
  subst hl
  obtain ⟨t, ht, hstream⟩ := h.stream
  refine (h.atPayload hstream).wp_receive h.dropped (h.packet ▸ rfl) fun b hb => ?_
  have hrest := hb.stream
  rw [← List.append_assoc, List.drop_eq_drop_min] at hrest
  refine hQ _ _ { s with taken := s.taken + min n s.unread.length } (by simp [Inbox.step]) ?_
  exact h.taken (Nat.min_le_right _ _) ht hrest

/-- **Every call is answered as the inbox answers it.** -/
theorem perform (h : Shows d s) (c : Inbound) {Q : Answer → Driver Bench → Prop}
    (hQ : ∀ d', Shows d' (s.step c).2 → Q (s.step c).1 d') : wp cut c.perform Q d := by
  cases c with
  | available link =>
    unfold Inbound.perform
    rw [wp_bind]
    exact h.available fun d' h' => hQ d' h'
  | byte link peek =>
    unfold Inbound.perform
    rw [wp_bind]
    refine h.receiveByte fun d' r s' hs h' => ?_
    rw [hs] at hQ
    exact hQ d' h'
  | bytes link n =>
    unfold Inbound.perform
    rw [wp_bind]
    refine h.receive fun d' r s' hs h' => ?_
    rw [hs] at hQ
    exact hQ d' h'

/-- **Every run of calls is answered as the inbox answers it.** -/
theorem session (h : Shows d s) (cs : List Inbound)
    {Q : List (Inbound × Answer) → Driver Bench → Prop}
    (hQ : ∀ d', Shows d' (s.run cs) → Q (s.transcript cs) d') :
    wp cut (Inbound.session cs) Q d := by
  induction cs generalizing d s Q with
  | nil => exact hQ d h
  | cons c cs ih =>
    unfold Inbound.session
    rw [wp_bind]
    refine h.perform c fun d₁ h₁ => ?_
    rw [wp_bind]
    exact ih h₁ fun d₂ h₂ => hQ d₂ h₂

end Shows

/-- A bench on which frames wait, all of them, and the clock moves by one with each look at it. -/
def Bench.filled (b : Bench) (frames : List Frame) : Bench :=
  { b with rx := frames.flatMap Frame.wire, arrivals := {}, step := 1 }

theorem Shows.start (b : Bench) (frames : List Frame) :
    Shows { engine := { device := b.filled frames } } { waiting := frames } where
  packet := rfl
  timeouts := rfl
  dropped := rfl
  stream := ⟨[], .nothing rfl, rfl, rfl, rfl⟩

/-- **Inbound payload is delivered.** On a driver that has just started and has all frames waiting,
every run of calls returns, and every call is answered as the inbox of the frames answers it. What is
handed out is a beginning of the payloads in order, each byte handed to the link of its own frame; a
look shows the byte that is handed out next; a call for a link other than that of the packet is
refused and changes nothing. At any moment some frames are parsed: all of their payload has been
handed out but for the unread end of the last one, which is what the stream goes on with, and the
packet is the header of that frame with the number of these bytes. -/
theorem inbound_delivery (b : Bench) (frames : List Frame) (calls : List Inbound) :
    ∃ log d, Inbound.session calls ({ engine := { device := b.filled frames } } : Driver Bench) =
        .ok log d ∧
      log = ({ waiting := frames } : Inbox).transcript calls ∧
      delivered log <+: frames.flatMap Frame.labelled ∧
      (∀ before after link r, log = before ++ (.byte link true, .byte (.ok r)) :: after →
        ∀ x ∈ (delivered after).head?, x = (link, r.byte)) ∧
      (∀ link, link ≠ d.packet.link →
        (∀ peek, (Driver.receiveByte link peek).run d = .ok (.error .invalidLink) d) ∧
        ∀ n, (Driver.receive link n).run d = .ok (.error .invalidLink) d) ∧
      ∃ parsed waiting unread between, frames = parsed ++ waiting ∧
        d.engine.device.rx = unread ++ between ++ waiting.flatMap Frame.wire ∧
        (between = [] ∨ between = utf8 lineEnd ∨ ∃ f ∈ parsed.getLast?, between = f.tail) ∧
        delivered log ++ unread.map (d.packet.link, ·) = parsed.flatMap Frame.labelled ∧
        match parsed.getLast? with
        | none => unread = [] ∧ d.packet = {}
        | some f => unread <:+ f.payload ∧ d.packet = f.packet unread.length := by
  have hrun : wp False (Inbound.session calls)
      (fun log d => log = ({ waiting := frames } : Inbox).transcript calls ∧
        Shows d (({ waiting := frames } : Inbox).run calls))
      ({ engine := { device := b.filled frames } } : Driver Bench) :=
    (Shows.start b frames).session calls fun d hd => ⟨rfl, hd⟩
  obtain ⟨log, d, hok, rfl, hd⟩ := wp_false_iff.1 hrun
  refine ⟨_, d, hok, rfl, ?_, fun before after link r h => Inbox.peeked h, ?_, ?_⟩
  · rw [← Inbox.owed_start, Inbox.owed_run calls]
    exact List.prefix_append _ _
  · intro link hl
    refine ⟨fun peek => ?_, fun n => ?_⟩
    · have hwp : wp False (Driver.receiveByte link peek).run
          (fun r d' => r = .error .invalidLink ∧ d' = d) d :=
        Attempt.wp_run.2 (Driver.wp_receiveByte_invalid hd.dropped (.inl hl) ⟨rfl, rfl⟩)
      obtain ⟨_, _, h, rfl, rfl⟩ := wp_false_iff.1 hwp
      exact h
    · have hwp : wp False (Driver.receive link n).run
          (fun r d' => r = .error .invalidLink ∧ d' = d) d :=
        Attempt.wp_run.2 (Driver.wp_receive_invalid hd.dropped hl ⟨rfl, rfl⟩)
      obtain ⟨_, _, h, rfl, rfl⟩ := wp_false_iff.1 hwp
      exact h
  · generalize hs : ({ waiting := frames } : Inbox).run calls = s at hd
    obtain ⟨t, ht, hstream⟩ := hd.stream
    have hframes := Inbox.frames_run (s := { waiting := frames }) calls
    have hdelivered := Inbox.delivered_run frames calls
    rw [hs] at hframes hdelivered
    refine ⟨s.parsed, s.waiting, s.unread, t, hframes.symm, hstream.rx, ?_, ?_, ?_⟩
    · cases ht with
      | trailer hf hc =>
        refine .inr (.inr ⟨_, hf, ?_⟩)
        have hclosed := (Bool.and_eq_true_iff.1 hc).1
        rw [hf, Option.any_some] at hclosed
        rw [Frame.tail, if_pos hclosed]
      | nothing => exact .inl rfl
      | lineEnd => exact .inr (.inl rfl)
    · rw [hd.packet]
      exact hdelivered
    · have hcurrent : s.parsed.getLast? = s.current := rfl
      rw [hcurrent, hd.packet]
      cases hc : s.current with
      | none => simp [Inbox.unread, Inbox.packet, hc]
      | some f => exact ⟨Inbox.unread_suffix hc, by simp [Inbox.packet, hc]⟩

end EspWifi
