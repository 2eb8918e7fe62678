import EspWifi.Proofs.Modem.Delivery

/-!
# Stored payload

Between two calls the driver stands somewhere in a row of frames: a part of the payload of its packet is
unread, and complete frames wait behind it. A look for data moves on to the next frame only when nothing is
unread, and a read takes what is unread from the front.

* `Driver.Stores`: some payload is unread, and frames wait behind it.
* `Driver.Stores.wp_available_next`: **a look that moves on.**
* `Driver.Stores.wp_receiveByte`, `Driver.Stores.wp_receive`: **reads of payload.**
-/

namespace EspWifi

open Run

namespace Driver

/-- **The bytes `v` of the packet are unread, and the frames wait behind them**: complete ones, each with some
payload and none with the notice of a close. The timeout of a field leaves time for a header. -/
structure Stores (d : Driver Bench) (v : Bytes) (frames : List Frame) : Prop extends
    d.AtPayload v (frames.flatMap Frame.wire) where
  plain : ∀ f ∈ frames, f.payload ≠ [] ∧ f.closed = false
  field : 7 < d.engine.timeouts.field.toNat

namespace Stores

variable {cut : Prop} {d : Driver Bench} {v u : Bytes} {x : UInt8} {f : Frame} {frames : List Frame}

/-- What was taken leaves the frames in store. -/
theorem took (h : d.Stores v frames) {b : Bench} {n : Nat}
    (hpayload : (d.took b d.engine.window n).AtPayload u (frames.flatMap Frame.wire)) :
    (d.took b d.engine.window n).Stores u frames :=
  ⟨hpayload, h.plain, h.field⟩

/-- What leaves the stream as it is leaves it all in store. -/
theorem still (h : d.Stores v frames) {b : Bench} (hb : b.Holds (v ++ frames.flatMap Frame.wire)) :
    Stores { d with engine := { d.engine with device := b } } v frames :=
  ⟨⟨h.remaining, h.dropped, hb⟩, h.plain, h.field⟩

/-- **When nothing is unread, a look moves on to the next frame**, whoever asks. -/
theorem wp_available_next (h : d.Stores [] (f :: frames)) {link : Option UInt8}
    {Q : UInt16 → Driver Bench → Prop}
    (hQ : ∀ d', d'.Stores f.payload frames → d'.packet = f.packet f.payload.length →
      Q (if d'.packet.isFor link then d'.packet.remaining else 0) d') : wp cut (available link) Q d := by
  have hlength : f.payload.length.toUInt16.toNat = f.payload.length := Nat.mod_eq_of_lt f.payload_lt
  have hclosed : f.closed = false := (h.plain f List.mem_cons_self).2
  have htail : f.tail = [] := if_neg (Bool.eq_false_iff.1 hclosed)
  have hstream := h.stream
  rw [List.nil_append, List.flatMap_cons, Frame.wire_eq, htail, List.append_nil] at hstream
  refine wp_available_frame (h.isDrained_iff.2 rfl) hstream h.field fun b window hb => ?_
  have hstores : Stores
      { d with
        engine := { d.engine with device := b, window := window, dropped := 0 }
        packet := f.packet f.payload.length } f.payload frames :=
    ⟨⟨hlength, fun _ => rfl, hb⟩, fun g hg => h.plain g (List.mem_cons_of_mem f hg), h.field⟩
  exact hQ _ hstores rfl

/-- A look finds nothing at the end of the row. -/
theorem wp_available_end (h : d.Stores [] []) {link : Option UInt8} {Q : UInt16 → Driver Bench → Prop}
    (hQ : ∀ d', d'.Stores [] [] → Q 0 d') : wp cut (available link) Q d := by
  have htime : 1 < d.engine.timeouts.field.toNat := Nat.lt_trans (by decide) h.field
  refine wp_available_nothing (h.isDrained_iff.2 rfl) h.stream htime fun b window hb => hQ _ ?_
  exact ⟨⟨h.remaining, fun hv => absurd rfl hv, hb⟩, h.plain, h.field⟩

/-- **A byte that is unread is read**, and no close is seen behind it. -/
theorem wp_receiveByte (h : d.Stores (x :: u) frames) {link : Fin 4}
    (hlink : d.packet.link = link.val.toUInt8) {Q : Received → Driver Bench → Prop}
    {F : Fault → Driver Bench → Prop}
    (hQ : ∀ d', d'.Stores u frames → d'.packet.link = link.val.toUInt8 → Q ⟨x, false⟩ d') :
    Attempt.wp cut (receiveByte link.val.toUInt8 false) Q F d := by
  refine h.toAtPayload.wp_receiveByte hlink (fun _ b hb => hQ _ (h.took hb) hlink) fun hlast b hb => ?_
  subst hlast
  -- what stands behind the payload is the beginning of a frame, if anything
  have hno : ∀ x ∈ (frames.flatMap Frame.wire).head?, x ≠ ascii '0' + link.val.toUInt8 ∧ x ≠ ascii ',' :=
    fun x hx => Frame.no_notice (Frame.head_wire frames x hx) link
  exact wp_sawClose_none hb.stream hno fun b' hb' => hQ _ ((h.took hb).still hb') hlink

/-- **Bytes that are unread are read at once.** -/
theorem wp_receive (h : d.Stores v frames) (hv : v ≠ []) {link : UInt8} (hlink : d.packet.link = link)
    {n : Nat} {Q : Bytes → Driver Bench → Prop} {F : Fault → Driver Bench → Prop}
    (hQ : ∀ d', d'.Stores (v.drop n) frames → d'.packet.link = link → Q (v.take n) d') :
    Attempt.wp cut (receive link n) Q F d :=
  h.toAtPayload.wp_receive (h.dropped hv) hlink fun _ hb => hQ _ (h.took hb) hlink

end Stores

end Driver

end EspWifi
