import EspWifi.Proofs.Modem.Sending
import EspWifi.Proofs.Session.Line

/-!
# Sending with unread input

A send does not throw away what waits to be read, but it looks for its prompt and for its confirmation
in the same stream. On the bench the bytes of the line are told apart: those that wait, and those that
arrive later.

* `Driver.wp_receive_waiting`: payload that is there already is read, whatever is still to arrive.
* `send_takes_unread`: **a send that succeeds takes the unread input with it**, while the packet goes
  on to announce it.
-/

namespace EspWifi

open Run

/-- A wait for a byte that is there already takes it, whatever is still to arrive. -/
theorem Engine.wp_awaitByte_waiting {cut : Prop} {e : Engine Bench} {timeout : UInt32} {x : UInt8}
    {w : Bytes} {Q : Option UInt8 → Engine Bench → Prop} (h : x :: w <+: e.device.rx)
    (hQ : ∀ b : Bench, w <+: b.rx → Q (some x) { e with device := b }) :
    wp cut (awaitByte timeout) Q e := by
  unfold awaitByte settling
  rw [wp_bind, wp_onDevice, Bench.wp_millis, wp_bind, wp_bind, wp_get, wp_pure]
  generalize hb : ({ e.device with ticks := e.device.ticks + e.device.step } : Bench) = b
  have hrx : x :: w <+: b.deliver.rx := by
    obtain ⟨⟨later, hlater⟩, -⟩ := b.deliver_line
    rw [hlater, ← hb]
    exact h.trans (List.prefix_append _ _)
  obtain ⟨t, ht⟩ := hrx
  rw [wp_loop_succ, wp_bind, wp_onDevice, Bench.wp_read, ← ht]
  exact hQ _ ⟨t, rfl⟩

namespace Driver

variable {cut : Prop} {d : Driver Bench} {u rest : Bytes} {Q : Bytes → Driver Bench → Prop}
  {F : Fault → Driver Bench → Prop}

/-- If nothing was thrown away, a packet that is not drained announces what is left of it. -/
theorem available_own (h0 : d.engine.dropped = 0)
    (hd : d.packet.isDrained = false) :
    available (some d.packet.link) d = .ok d.packet.remaining d := by
  have hwp : wp False (available (some d.packet.link))
      (fun n d' => n = d.packet.remaining ∧ d' = d) d :=
    wp_available_held h0 hd ⟨if_pos (beq_self_eq_true _), rfl⟩
  obtain ⟨_, _, h, rfl, rfl⟩ := wp_false_iff.1 hwp
  exact h

theorem wp_readPayload_waiting {timeout : UInt32} (h : u ++ rest <+: d.engine.device.rx)
    (hQ : ∀ d', rest <+: d'.engine.device.rx → Q u d') :
    Attempt.wp cut (readPayload timeout u.length) Q F d := by
  induction u generalizing d Q with
  | nil => exact hQ d h
  | cons x u ih =>
    rw [List.length_cons, readPayload, Attempt.wp_bind, Attempt.wp_lift, wp_onEngine]
    refine Engine.wp_awaitByte_waiting h fun b hb => ?_
    simp only [Attempt.wp_bind, Attempt.wp_lift]
    unfold countByte
    rw [wp_modify]
    exact ih hb hQ

/-- **Payload that is there already is read at once.** -/
theorem wp_receive_waiting (h0 : d.engine.dropped = 0)
    (hu : u.length = d.packet.remaining.toNat) (h : u ++ rest <+: d.engine.device.rx)
    (hQ : ∀ d', rest <+: d'.engine.device.rx → Q u d') :
    Attempt.wp cut (receive d.packet.link u.length) Q F d := by
  unfold receive
  rw [Attempt.wp_bind, Attempt.wp_lift]
  refine wp_forgetStalePacket_kept h0 ?_
  rw [Attempt.wp_bind, Attempt.wp_get]
  simp only [ne_eq, not_true_eq_false, if_false, Attempt.wp_bind, Attempt.wp_lift, wp_timeouts]
  rw [← hu, Nat.min_self]
  exact wp_readPayload_waiting h hQ

end Driver

/-- **A send takes the unread input with it.** After a send that succeeds the packet still announces
all of its unread bytes. But of the line, the input that waited first, everything up to the prompt and
on to the confirmation has been read, and thrown away; if the confirmation does not occur in the
input that waited, that is all of that input. Reads hand out what follows on the line. So those that
hand out as many bytes as were unread hand out the unread bytes, with the further frames next
behind them, exactly if all of these come again right there; and if they wait there, they are
read. -/
theorem send_takes_unread {s : Outgoing} {d d' : Driver Bench} {unread frames : Bytes}
    (hrx : d.engine.device.rx = unread ++ frames)
    (hunread : unread.length = d.packet.remaining.toNat) (hne : unread ≠ [])
    (h0 : d.engine.dropped = 0) (hsend : s.send.run d = .ok (.ok ()) d') :
    d'.packet = d.packet ∧
      Driver.available (some d.packet.link) d' = .ok d.packet.remaining d' ∧
      ∃ c c' later, unread ++ frames ++ later = c ++ c' ++ d'.engine.device.rx ∧
        [ascii '>'] <:+ c ∧ Tag.sendOk.bytes <:+ c' ∧
        (¬ Tag.sendOk.bytes <:+: unread ++ frames → unread ++ frames <+: c ++ c') ∧
        (unread ++ frames <+: d'.engine.device.rx →
          ∃ d'', (Driver.receive d.packet.link unread.length).run d' = .ok (.ok unread) d'' ∧
            frames <+: d''.engine.device.rx) ∧
        ∀ calls log d'', (∀ call ∈ calls, call.isRead = true) →
          Inbound.session calls d' = .ok log d'' →
          ∃ x more rest, unread ++ frames ++ later ++ more = c ++ c' ++ x ++ rest ∧
            delivered log = x.map (d.packet.link, ·) ∧
            (x.length = unread.length → d''.packet.isDrained = true ∧
              (x = unread ↔
                unread <+: (unread ++ frames ++ later ++ more).drop (c ++ c').length) ∧
              (x = unread ∧ frames <+: rest ↔
                unread ++ frames <+:
                  (unread ++ frames ++ later ++ more).drop (c ++ c').length)) := by
  have hsent : Attempt.wp True s.send (fun _ d' => ∃ c c' w, d.Moves Bench.ledger d' (c ++ c') w ∧
      [ascii '>'] <:+ c ∧ Tag.sendOk.bytes <:+ c') (fun _ _ => True) d :=
    Driver.wp_send Bench.ledger (fun c c' w d' h hc hc' => ⟨c, c', w, h, hc, hc'⟩)
      fun _ _ _ _ _ => trivial
  obtain ⟨c, c', w, hmoves, hc, hc'⟩ := wp_of_ok hsent hsend
  obtain ⟨⟨later, hline⟩, -⟩ := hmoves.engine.device
  rw [hrx] at hline
  have hdropped : d'.engine.dropped = 0 := hmoves.engine.dropped.trans h0
  refine ⟨hmoves.packet, ?_, c, c', later, hline, hc, hc', ?_, ?_, ?_⟩
  · have hundrained : d'.packet.isDrained = false := by
      have hpos : 0 < unread.length := List.length_pos_iff.2 hne
      rw [Bool.eq_false_iff, ne_eq, Packet.isDrained_iff, hmoves.packet]
      omega
    rw [← hmoves.packet]
    exact Driver.available_own hdropped hundrained
  · intro hnone
    have hwaiting : unread ++ frames <+: c ++ c' ++ d'.engine.device.rx :=
      hline ▸ List.prefix_append _ _
    -- a scan that ended within the input that waited has seen the confirmation there
    rcases List.prefix_or_prefix_of_prefix hwaiting (List.prefix_append (c ++ c') _) with h | h
    · exact h
    · exact absurd ((hc'.trans (List.suffix_append c c')).isInfix.trans h.isInfix) hnone
  · intro hagain
    have hwp : Attempt.wp False (Driver.receive d'.packet.link unread.length)
        (fun x d'' => x = unread ∧ frames <+: d''.engine.device.rx) (fun _ _ => False) d' :=
      Driver.wp_receive_waiting hdropped (by rw [hunread, hmoves.packet]) hagain
        fun _ h => ⟨rfl, h⟩
    rw [hmoves.packet] at hwp
    obtain ⟨r, d'', hrun, hr⟩ := wp_false_iff.1 hwp
    cases r with
    | ok x =>
      obtain ⟨rfl, h⟩ := hr
      exact ⟨d'', hrun, h⟩
    | error f => exact hr.elim
  · intro calls log d'' hcalls hsession
    obtain ⟨x, hx, hhands⟩ :=
      wp_of_ok (Driver.session_hands Bench.ledger hcalls (.inl hdropped)) hsession
    obtain ⟨c'', ⟨more, hmore⟩, -⟩ := hhands.moves
    have hall : unread ++ frames ++ later ++ more =
        c ++ c' ++ (x ++ (c'' ++ d''.engine.device.rx)) := by
      rw [hline, List.append_assoc (c ++ c'), hmore, List.append_assoc x]
    refine ⟨x, more, c'' ++ d''.engine.device.rx, by rw [hall, ← List.append_assoc], ?_, ?_⟩
    · rw [hx, hmoves.packet]
    · intro hlen
      rw [hall, List.drop_left]
      refine ⟨hhands.drained ?_, ?_, ?_⟩
      · rw [hlen, hunread, hmoves.packet]
      · have h : unread ++ [] <+: x ++ (c'' ++ d''.engine.device.rx) ↔ unread = x ∧ [] <+: _ :=
          List.prefix_append_inj_of_length_eq hlen.symm
        rw [List.append_nil] at h
        rw [h, and_iff_left List.nil_prefix, eq_comm]
      · rw [List.prefix_append_inj_of_length_eq hlen.symm, eq_comm]

/-- A packet of which all five bytes are unread, and a module that takes a payload. -/
def unreadHello : Driver Bench where
  engine := { device := {
    rx := utf8 "HELLO"
    replies := [[(0, utf8 "> ")], [(0, utf8 "\r\nSEND OK\r\n")]] } }
  packet := { link := 0, remaining := 5 }

theorem send_takes_hello : ∃ d', (Outgoing.bytes 0 (utf8 "x")).send.run unreadHello =
      .ok (.ok ()) d' ∧ d'.packet = unreadHello.packet ∧
    ∃ c c', [ascii '>'] <:+ c ∧ Tag.sendOk.bytes <:+ c' ∧ utf8 "HELLO" <+: c ++ c' := by
  obtain ⟨d', hsend⟩ : ∃ d', (Outgoing.bytes 0 (utf8 "x")).send.run unreadHello =
      .ok (.ok ()) d' := value?_eq_some.1 (by decide +kernel)
  have hrx : unreadHello.engine.device.rx = utf8 "HELLO" ++ [] := rfl
  obtain ⟨hp, -, c, c', -, -, hc, hc', hlost, -, -⟩ :=
    send_takes_unread hrx (by decide) (by decide) rfl hsend
  exact ⟨d', hsend, hp, c, c', hc, hc', hlost (by decide)⟩

/-- **Unread input does not survive a send.** The header is read, the payload is sent and confirmed, and
five bytes are still announced, but none of them can be read. -/
theorem hello_lost :
    value? (do
      let n ← Driver.available (some 0)
      let sent ← (Outgoing.bytes 0 (utf8 "x")).send.run
      let n' ← Driver.available (some 0)
      let log ← Inbound.session (List.replicate 5 (.byte 0 false))
      return (n, sent, n', delivered log))
      ({ engine := { device := {
        rx := utf8 "+IPD,0,5:HELLO"
        replies := [[(0, utf8 "> ")], [(0, utf8 "\r\nSEND OK\r\n")]] } } } : Driver Bench) =
      some (5, .ok (), 5, []) := by
  decide +kernel

end EspWifi
