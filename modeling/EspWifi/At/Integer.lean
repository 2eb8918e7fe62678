import EspWifi.At.Engine

/-!
# Numbers in a response

`Engine.readInt` reads a signed decimal number byte by byte. It skips what cannot start a number,
and leaves the byte after the number unread.
-/

namespace EspWifi

/-- What has been read of a number. -/
structure Numeral where
  negative : Bool := false
  value : Nat := 0
  digits : Nat := 0

namespace Numeral

/-- What the next byte does to a number. -/
inductive Next where
  /-- It belongs to the number. -/
  | take (n : Numeral)
  /-- It ends the number. -/
  | stop
  /-- It makes the number too large to go on with. -/
  | overflow

/-- The largest value a number may reach while it is read: that of a signed word of 64 bits. -/
def accumulatorLimit : Nat := 9223372036854775807

/-- **Read one more byte.** One minus sign may come before the first digit. -/
def next (n : Numeral) (b : UInt8) : Next :=
  if b = ascii '-' ∧ n.digits = 0 ∧ !n.negative then .take { n with negative := true }
  else if isDigitByte b then
    let value := n.value * 10 + (b - ascii '0').toNat
    if value ≤ accumulatorLimit then .take { n with value := value, digits := n.digits + 1 }
    else .overflow
  else .stop

/-- The numbers of 32 bits run from here … -/
def int32Min : Int := -2147483648

/-- … up to here. -/
def int32Max : Int := 2147483647

/-- The number that was read, if it has a digit and fits into 32 bits. -/
def result (n : Numeral) : Option Int :=
  let value : Int := if n.negative then -n.value else n.value
  if 0 < n.digits ∧ int32Min ≤ value ∧ value ≤ int32Max then some value else none

end Numeral

namespace Engine

variable {σ : Type} [Device σ]

/-- Skip to a byte that can start a number, and return it unread. -/
def skipToNumber (timeout : UInt32) : Run (Engine σ) (Option UInt8) := do
  Run.loop ((← backlog) + 1) (fun () => do
    match ← awaitPeek timeout with
    | none => return .finish none
    | some b =>
      if b = ascii '-' ∨ isDigitByte b then return .finish (some b)
      else
        let _ ← onDevice Device.read
        return .again ()) ()

/-- Read a number whose first byte is `first`, which is still unread. -/
def readNumeral (timeout : UInt32) (first : UInt8) : Run (Engine σ) (Option Int) := do
  Run.loop ((← backlog) + 2) (fun (n, b) => do
    match Numeral.next n b with
    | .overflow => return .finish none
    | .stop => return .finish n.result
    | .take n =>
      let _ ← onDevice Device.read
      match ← awaitPeek timeout with
      | some b => return .again (n, b)
      | none => return .finish n.result) (({} : Numeral), first)

/-- **Read a signed decimal number of 32 bits.** `none` if no number begins in time, or it does not
fit. -/
def readInt : Run (Engine σ) (Option Int) := do
  let timeout ← fieldTimeout
  match ← skipToNumber timeout with
  | none => return none
  | some first => readNumeral timeout first

end Engine

end EspWifi
