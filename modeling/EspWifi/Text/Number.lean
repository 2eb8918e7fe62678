/-!
# Reading numbers

Unsigned numbers in a radix up to 16, with an upper limit, and the pieces of a text between
separators.

* `readUnsigned`: a whole text as a number; one plus sign may come first.
* `splitAt`: the pieces between separators.
-/

namespace EspWifi

/-- The value of a digit in a radix of at most 16; letters may have either case. -/
def digitValue? (radix : Nat) (c : Char) : Option Nat :=
  let v? : Option Nat :=
    if '0' ≤ c ∧ c ≤ '9' then some (c.toNat - '0'.toNat)
    else if 'a' ≤ c ∧ c ≤ 'f' then some (c.toNat - 'a'.toNat + 10)
    else if 'A' ≤ c ∧ c ≤ 'F' then some (c.toNat - 'A'.toNat + 10)
    else none
  v?.filter (· < radix)

/-- The value of digits read after a number `n`, if there is nothing but digits. -/
def readDigits (radix : Nat) : Nat → List Char → Option Nat
  | n, [] => some n
  | n, c :: cs =>
    match digitValue? radix c with
    | none => none
    | some d => readDigits radix (n * radix + d) cs

/-- A text without its leading plus sign. -/
def dropPlus : List Char → List Char
  | '+' :: cs => cs
  | cs => cs

/-- **A text that is nothing but a number of at most `limit`**, which has at least one digit. -/
def readUnsigned (radix limit : Nat) (cs : List Char) : Option Nat :=
  match dropPlus cs with
  | [] => none
  | ds => (readDigits radix 0 ds).filter (· ≤ limit)

/-- The pieces of a text between separators; there is one more of them than of separators. -/
def splitAt (sep : Char) : List Char → List (List Char)
  | [] => [[]]
  | c :: cs =>
    if c = sep then [] :: splitAt sep cs
    else
      match splitAt sep cs with
      | [] => [[c]]
      | piece :: pieces => (c :: piece) :: pieces

end EspWifi
