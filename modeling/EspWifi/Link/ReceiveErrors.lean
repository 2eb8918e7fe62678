/-!
# Receive error flags

The four things that can go wrong with a received byte, as a set of flags.
-/

namespace EspWifi

/-- A set of receive errors. -/
structure ReceiveErrors where
  /-- The parity bit was wrong. -/
  parity : Bool := false
  /-- The stop bit was missing. -/
  framing : Bool := false
  /-- The line was noisy. -/
  noise : Bool := false
  /-- A byte was lost: the hardware was not read in time, or the queue was full. -/
  overrun : Bool := false
  deriving DecidableEq

namespace ReceiveErrors

/-- No error. -/
def empty : ReceiveErrors := {}

/-- The flags of either set. -/
def union (a b : ReceiveErrors) : ReceiveErrors where
  parity := a.parity || b.parity
  framing := a.framing || b.framing
  noise := a.noise || b.noise
  overrun := a.overrun || b.overrun

instance : Union ReceiveErrors := ⟨union⟩

def isEmpty (e : ReceiveErrors) : Bool := !(e.parity || e.framing || e.noise || e.overrun)

/-- The flags as the low four bits of a status register. -/
def bits (e : ReceiveErrors) : Nat :=
  e.parity.toNat + 2 * e.framing.toNat + 4 * e.noise.toNat + 8 * e.overrun.toNat

/-- The flags set in a status register; all but its low four bits mean something else. -/
def ofBits (n : Nat) : ReceiveErrors where
  parity := n.testBit 0
  framing := n.testBit 1
  noise := n.testBit 2
  overrun := n.testBit 3

/-- Names of the flags that are set, lowest bit first. -/
def names (e : ReceiveErrors) : List String :=
  (if e.parity then ["PARITY"] else []) ++ (if e.framing then ["FRAMING"] else []) ++
    (if e.noise then ["NOISE"] else []) ++ (if e.overrun then ["OVERRUN"] else [])

/-- How a log record shows the set: the names joined by bars, or a zero. -/
def describe (e : ReceiveErrors) : String :=
  "RxErrors(" ++ (if e.isEmpty then "0x0" else " | ".intercalate e.names) ++ ")"

theorem empty_union (e : ReceiveErrors) : .empty ∪ e = e := by
  show union empty e = e
  simp [union, empty]

theorem union_empty (e : ReceiveErrors) : e ∪ .empty = e := by
  show union e empty = e
  simp [union, empty]

theorem union_assoc (a b c : ReceiveErrors) : a ∪ b ∪ c = a ∪ (b ∪ c) := by
  show union (union a b) c = union a (union b c)
  simp only [union, Bool.or_assoc]

/-- The flags survive the trip through a status register. -/
theorem ofBits_bits (e : ReceiveErrors) : ofBits e.bits = e := by
  rcases e with ⟨_ | _, _ | _, _ | _, _ | _⟩ <;> decide

end ReceiveErrors

end EspWifi
