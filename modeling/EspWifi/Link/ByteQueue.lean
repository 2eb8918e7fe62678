import EspWifi.Bytes
import EspWifi.Link.ReceiveErrors

/-!
# Byte queues

A queue of at most `n` bytes between an interrupt and the foreground, with the receive errors seen
since they were last taken. Errors never block the producer: a byte that does not fit is dropped
and leaves an overrun behind.

* `bytes_push`, `bytes_pop`, `bytes_fill`: what the operations do to the queued bytes.
* `errors_push`: what a push does to the errors.
* `fill_fst`: how many bytes go in.
-/

namespace EspWifi

/-- A queue of at most `n` bytes, oldest first, with latched receive errors. -/
structure ByteQueue (n : Nat) where
  bytes : Bytes
  errors : ReceiveErrors
  length_le : bytes.length ≤ n

namespace ByteQueue

variable {n : Nat}

/-- The queue before anything has happened. -/
def empty : ByteQueue n := ⟨[], .empty, Nat.zero_le n⟩

def length (q : ByteQueue n) : Nat := q.bytes.length

def isEmpty (q : ByteQueue n) : Bool := q.bytes.isEmpty

def isFull (q : ByteQueue n) : Bool := q.bytes.length == n

/-- **Append a byte if there is room.** A full queue drops it and latches an overrun. -/
def push (q : ByteQueue n) (b : UInt8) : Bool × ByteQueue n :=
  if h : q.bytes.length < n then
    (true, { q with bytes := q.bytes ++ [b], length_le := by rw [List.length_append]; exact h })
  else
    (false, { q with errors := q.errors ∪ { overrun := true } })

/-- Take the oldest byte out. -/
def pop (q : ByteQueue n) : Option UInt8 × ByteQueue n :=
  (q.bytes.head?,
    { q with bytes := q.bytes.tail, length_le := by have := q.length_le; simp; omega })

/-- The oldest byte, left in place. -/
def peek (q : ByteQueue n) : Option UInt8 := q.bytes.head?

/-- Drop all bytes and forget all errors. -/
def clear (_ : ByteQueue n) : ByteQueue n := empty

/-- Latch errors the hardware reported. -/
def flag (q : ByteQueue n) (e : ReceiveErrors) : ByteQueue n := { q with errors := q.errors ∪ e }

/-- The latched errors, which are forgotten. -/
def takeErrors (q : ByteQueue n) : ReceiveErrors × ByteQueue n :=
  (q.errors, { q with errors := .empty })

/-- Append bytes as long as there is room. Returns how many went in. -/
def fill (q : ByteQueue n) : Bytes → Nat × ByteQueue n
  | [] => (0, q)
  | b :: bs =>
    if q.isFull then (0, q)
    else
      let (k, q') := (q.push b).2.fill bs
      (k + 1, q')

theorem push_fst (q : ByteQueue n) (b : UInt8) :
    (q.push b).1 = decide (q.bytes.length < n) := by
  unfold push
  split <;> simp [*]

theorem bytes_push (q : ByteQueue n) (b : UInt8) :
    (q.push b).2.bytes = if q.bytes.length < n then q.bytes ++ [b] else q.bytes := by
  unfold push
  split <;> rfl

/-- A byte that is dropped leaves an overrun behind. -/
theorem errors_push (q : ByteQueue n) (b : UInt8) :
    (q.push b).2.errors =
      if q.bytes.length < n then q.errors else q.errors ∪ { overrun := true } := by
  unfold push
  split <;> rfl

theorem bytes_pop (q : ByteQueue n) : q.pop.1.toList ++ q.pop.2.bytes = q.bytes := by
  rcases q with ⟨_ | ⟨b, bs⟩, errors, h⟩ <;> rfl

theorem isFull_eq (q : ByteQueue n) : q.isFull = decide (n ≤ q.bytes.length) := by
  have h := q.length_le
  unfold isFull
  rw [Bool.eq_iff_iff, beq_iff_eq, decide_eq_true_eq]
  omega

/-- **As many bytes go in as there is room for.** -/
theorem fill_fst (q : ByteQueue n) (bs : Bytes) :
    (q.fill bs).1 = min (n - q.bytes.length) bs.length := by
  induction bs generalizing q with
  | nil => simp [fill]
  | cons b bs ih =>
    unfold fill
    rw [isFull_eq]
    by_cases h : n ≤ q.bytes.length
    · simp only [h, decide_true, if_true, List.length_cons]
      omega
    · have room : q.bytes.length < n := by omega
      simp only [h, decide_false, Bool.false_eq_true, if_false, ih, bytes_push, if_pos room,
        List.length_append, List.length_cons, List.length_nil]
      omega

/-- **The bytes that go in are the first ones, and they go to the end.** -/
theorem bytes_fill (q : ByteQueue n) (bs : Bytes) :
    (q.fill bs).2.bytes = q.bytes ++ bs.take (q.fill bs).1 := by
  induction bs generalizing q with
  | nil => simp [fill]
  | cons b bs ih =>
    unfold fill
    rw [isFull_eq]
    by_cases h : n ≤ q.bytes.length
    · simp [h]
    · have room : q.bytes.length < n := by omega
      simp only [h, decide_false, Bool.false_eq_true, if_false, ih, bytes_push, if_pos room,
        List.take_succ_cons, List.append_assoc, List.singleton_append]

end ByteQueue

end EspWifi
