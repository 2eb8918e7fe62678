import EspWifi.Proofs.Link.Ledger
import EspWifi.Proofs.Session.Settled

/-!
# The line of a bench

What is on the line of a bench are the bytes that wait and those that arrive later.

* `Bench.Line`: what went over the line from one state to another.
* `Bench.ledger`: the ledger of the bench; what is read is the front of what is on the line.
-/

namespace EspWifi

open Run

namespace Bench

variable (b : Bench)

theorem deliver_line : (∃ later, b.deliver.rx = b.rx ++ later) ∧ b.deliver.sent = b.sent := by
  unfold deliver
  split
  · exact ⟨⟨[], (List.append_nil _).symm⟩, rfl⟩
  · exact ⟨⟨_, rfl⟩, rfl⟩

theorem schedule_line (chunks : Chunks) :
    (∃ later, (b.schedule chunks).rx = b.rx ++ later) ∧ (b.schedule chunks).sent = b.sent := by
  unfold schedule
  obtain ⟨⟨l, hl⟩, hs⟩ := b.deliver_line
  obtain ⟨⟨l', hl'⟩, hs'⟩ :=
    { b.deliver with arrivals := b.deliver.arrivals.addAll b.ticks chunks }.deliver_line
  refine ⟨⟨l ++ l', ?_⟩, hs'.trans hs⟩
  rw [hl', ← List.append_assoc, ← hl]

/-- The transmitter takes a beginning of what it is offered. -/
theorem transmit_line (bytes : Bytes) :
    (∃ later, (b.transmit bytes).2.rx = b.rx ++ later) ∧
      (b.transmit bytes).2.sent = b.sent ++ bytes.take (b.transmit bytes).1 := by
  have same : ∃ later, b.rx = b.rx ++ later := ⟨[], (List.append_nil _).symm⟩
  unfold transmit
  dsimp only
  generalize b.acceptance bytes.length = a
  obtain ⟨n, limits⟩ := a
  dsimp only
  split
  · exact ⟨same, rfl⟩
  · exact ⟨same, rfl⟩
  · exact schedule_line { b with limits := limits, sent := b.sent ++ bytes.take _, replies := _ } _

/-- What is on the line from one state to another: what waits and what arrives until then is what is
read, followed by what waits then. -/
def Line (b b' : Bench) (c w : Bytes) : Prop :=
  (∃ later, b.rx ++ later = c ++ b'.rx) ∧ b'.sent = b.sent ++ w

theorem line_deliver : b.Line b.deliver [] [] := by
  obtain ⟨⟨l, hl⟩, hs⟩ := b.deliver_line
  exact ⟨⟨l, hl.symm⟩, by rw [hs, List.append_nil]⟩

theorem line_same {b' : Bench} (hrx : b'.rx = b.rx) (hsent : b'.sent = b.sent) :
    b.Line b' [] [] :=
  ⟨⟨[], by rw [hrx, List.append_nil, List.nil_append]⟩, by rw [hsent, List.append_nil]⟩

/-- **The ledger of the bench.** -/
def ledger : Ledger Bench where
  moves := Line
  refl b := b.line_same rfl rfl
  trans := by
    rintro b b' b'' c c' w w' ⟨⟨l, hl⟩, hw⟩ ⟨⟨l', hl'⟩, hw'⟩
    refine ⟨⟨l ++ l', ?_⟩, by rw [hw', hw, List.append_assoc]⟩
    rw [← List.append_assoc, hl, List.append_assoc, hl', List.append_assoc]
  available b := b.line_deliver
  read b := by
    obtain ⟨⟨l, hl⟩, hs⟩ := b.deliver_line
    refine ⟨⟨l, ?_⟩, hs.trans (List.append_nil _).symm⟩
    show b.rx ++ l = b.deliver.rx.head?.toList ++ b.deliver.rx.tail
    rw [← hl]
    cases b.deliver.rx <;> rfl
  peek b := b.line_deliver
  write b bytes := by
    obtain ⟨⟨l, hl⟩, hs⟩ := b.transmit_line bytes
    exact ⟨⟨l, hl.symm⟩, hs⟩
  takeErrors b := by
    show b.Line (if b.bare then (ReceiveErrors.empty, b) else _).2 [] []
    split <;> exact b.line_same rfl rfl
  millis b := b.line_same rfl rfl
  delay b ms := wp_delay fun _ _ => b.line_same rfl rfl
  record b level message := by
    show b.Line (if b.verbosity.keeps level then _ else b) [] []
    split <;> exact b.line_same rfl rfl

end Bench

end EspWifi
