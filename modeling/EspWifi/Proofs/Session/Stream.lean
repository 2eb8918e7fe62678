import EspWifi.Proofs.Link.Queued

/-!
# The stream of a bench

Bytes reach a bench in pieces, at any times. A program that sends nothing takes them from one stream:
what waits, followed by what is still to arrive.

* `Bench.stream`: the stream; `Bench.Flow`: some bytes were taken from its front.
* `Bench.head?_deliver`: a look at the next byte sees the head of the stream, or nothing yet.
* `Bench.streamLedger`: the ledger of the stream.
-/

namespace EspWifi

open Run

namespace Bench

variable (b : Bench)

/-- **What waits, and behind it what is still to arrive.** -/
def stream : Bytes := b.rx ++ b.arrivals.items.flatten

theorem total_eq (pieces : List Bytes) : total pieces = pieces.flatten.length := by
  induction pieces with
  | nil => rfl
  | cons piece pieces ih => rw [total, ih, List.flatten_cons, List.length_append]

/-- The bound on the bytes that can still arrive counts those of the stream. -/
theorem backlog_eq_length_stream : Device.backlog b = b.stream.length := by
  show b.rx.length + total b.arrivals.items = b.stream.length
  rw [stream, List.length_append, total_eq]

theorem stream_deliver : b.deliver.stream = b.stream := by
  have hitems := congrArg List.flatten (b.arrivals.items_due b.ticks)
  rw [List.flatten_append] at hitems
  rw [deliver_eq, stream, stream, hitems, List.append_assoc]

theorem items_deliver (h : b.arrivals.items = []) : b.deliver.arrivals.items = [] := by
  have hdue := b.arrivals.items_due b.ticks
  rw [h] at hdue
  rw [deliver_eq]
  exact (List.append_eq_nil_iff.1 hdue.symm).2

/-- **A look at the next byte sees the head of the stream**, or nothing if it has not arrived yet. -/
theorem head?_deliver :
    (b.deliver.rx.head? = none ∨ b.deliver.rx.head? = b.stream.head?) ∧
      (b.arrivals.items = [] → b.deliver.rx.head? = b.stream.head?) := by
  have hstream := b.stream_deliver
  constructor
  · rw [← hstream, stream]
    cases b.deliver.rx with
    | nil => exact .inl rfl
    | cons x rx => exact .inr rfl
  · intro hitems
    rw [← hstream, stream, b.items_deliver hitems, List.flatten_nil, List.append_nil]

/-- **The bytes `c` were taken from the front of the stream.** If nothing was still to arrive before,
nothing is afterwards. -/
structure Flow (b b' : Bench) (c : Bytes) : Prop where
  stream : b.stream = c ++ b'.stream
  settled : b.arrivals.items = [] → b'.arrivals.items = []

theorem Flow.trans {b b' b'' : Bench} {c c' : Bytes} (h : b.Flow b' c) (h' : b'.Flow b'' c') :
    b.Flow b'' (c ++ c') where
  stream := by rw [h.stream, h'.stream, List.append_assoc]
  settled hb := h'.settled (h.settled hb)

theorem flow_same {b' : Bench} (hrx : b'.rx = b.rx) (harrivals : b'.arrivals = b.arrivals) :
    b.Flow b' [] := by
  constructor
  · rw [stream, stream, hrx, harrivals, List.nil_append]
  · rw [harrivals]
    exact id

theorem flow_deliver : b.Flow b.deliver [] := ⟨b.stream_deliver.symm, b.items_deliver⟩

/-- The byte that is read is the front of the stream. -/
theorem flow_read :
    b.Flow { b.deliver with rx := b.deliver.rx.tail } b.deliver.rx.head?.toList := by
  refine ⟨?_, b.items_deliver⟩
  rw [← b.stream_deliver, stream, stream, ← List.append_assoc]
  congr 1
  cases b.deliver.rx <;> rfl

/-- A transmitter that takes nothing is not answered. -/
theorem flow_transmit {bytes : Bytes} (h : bytes.take (b.transmit bytes).1 = []) :
    b.Flow (b.transmit bytes).2 [] := by
  have hle : (b.acceptance bytes.length).1 ≤ bytes.length := by
    unfold acceptance
    split
    · exact Nat.min_le_right _ _
    · split
      · exact Nat.zero_le _
      · exact Nat.le_refl _
  revert h
  unfold transmit
  dsimp only
  generalize b.acceptance bytes.length = a at hle
  obtain ⟨n, limits⟩ := a
  dsimp only at hle ⊢
  cases n with
  | zero => exact fun _ => b.flow_same rfl rfl
  | succ n =>
    have hne : bytes.take (n + 1) ≠ [] := by
      intro h0
      have hlen := congrArg List.length h0
      rw [List.length_take, List.length_nil] at hlen
      omega
    intro h
    refine absurd ?_ hne
    cases hr : b.replies with
    | nil => rwa [hr] at h
    | cons reply rest => rwa [hr] at h

/-- **The ledger of the stream.** As long as nothing is sent, what is read is the front of it. -/
def streamLedger : Ledger Bench where
  moves b b' c w := w = [] → b.Flow b' c
  refl b _ := b.flow_same rfl rfl
  trans h h' hw := by
    obtain ⟨hw, hw'⟩ := List.append_eq_nil_iff.1 hw
    exact (h hw).trans (h' hw')
  available b _ := b.flow_deliver
  read b _ := b.flow_read
  peek b _ := b.flow_deliver
  write b _ hw := b.flow_transmit hw
  takeErrors b _ := by
    show b.Flow (if b.bare then (ReceiveErrors.empty, b) else _).2 []
    split <;> exact b.flow_same rfl rfl
  millis b _ := b.flow_same rfl rfl
  delay b _ := wp_delay fun _ _ _ => b.flow_same rfl rfl
  record b level message _ := by
    show b.Flow (if b.verbosity.keeps level then _ else b) []
    split <;> exact b.flow_same rfl rfl

end Bench

end EspWifi
