import EspWifi.At.Fault

/-!
# The link table

The module keeps up to four links open. The table says which of them are in use, and on which local
port they listen. The module numbers incoming connections from the lowest link up, so new links are
taken from the highest down.

* `slot?_update?`: a change of one slot leaves the others as they are.
-/

namespace EspWifi

/-- Links the module keeps open at once. -/
def linkCount : Nat := 4

/-- The number that stands for no link. -/
def noLink : Nat := 255

/-- The only link on which the module lets a server listen. -/
def serverLink : UInt8 := 1

/-- What is known of one link. -/
structure Slot where
  inUse : Bool := false
  /-- The local port it listens on, 0 if none. -/
  port : UInt16 := 0
  deriving DecidableEq

/-- The slots of all links. -/
structure LinkTable where
  slots : Vector Slot linkCount
  deriving DecidableEq

namespace LinkTable

/-- The table with nothing in use. -/
def fresh : LinkTable := ⟨.replicate linkCount {}⟩

/-- The slot of a link, if there is such a link. -/
def slot? (t : LinkTable) (link : UInt8) : Option Slot := t.slots[link.toNat]?

/-- Change the slot of a link; `none` if there is no such link. -/
def update? (t : LinkTable) (link : UInt8) (f : Slot → Slot) : Option LinkTable :=
  if h : link.toNat < linkCount then
    some ⟨t.slots.set link.toNat (f t.slots[link.toNat])⟩
  else none

/-- **A slot is changed where it stands, and the others stay as they are.** -/
theorem slot?_update? {t t' : LinkTable} {link : UInt8} {f : Slot → Slot}
    (h : t.update? link f = some t') (other : UInt8) :
    t'.slot? other = if other = link then (t.slot? link).map f else t.slot? other := by
  unfold update? at h
  split at h
  case isFalse => cases h
  case isTrue hlt =>
    cases h
    simp only [slot?]
    by_cases e : other = link
    · subst e
      simp [hlt]
    · have ne : link.toNat ≠ other.toNat := fun he => e (UInt8.toNat_inj.1 he).symm
      rw [if_neg e, Vector.getElem?_set_ne hlt ne]

/-- Is this a link that is in use? -/
def isClaimed (t : LinkTable) (link : UInt8) : Bool := (t.slot? link).any (·.inUse)

/-- All links, lowest first. -/
def links : List UInt8 := (List.range linkCount).map (·.toUInt8)

/-- The links in use, lowest first. -/
def claimed (t : LinkTable) : List UInt8 := links.filter t.isClaimed

/-- **The highest link that is not in use.** -/
def free? (t : LinkTable) : Option UInt8 := links.reverse.find? fun link => !t.isClaimed link

/-- Mark a link as in use. -/
def claim (t : LinkTable) (link : UInt8) : Except Fault LinkTable :=
  match t.update? link fun s => { s with inUse := true } with
  | some t => .ok t
  | none => .error .invalidLink

/-- Record the local port a link listens on. -/
def setPort (t : LinkTable) (link : UInt8) (port : UInt16) : Except Fault LinkTable :=
  match t.update? link fun s => { s with port := port } with
  | some t => .ok t
  | none => .error .invalidLink

/-- Give a link back and forget its port. Nothing happens to a link that does not exist. -/
def release (t : LinkTable) (link : UInt8) : LinkTable :=
  (t.update? link fun _ => {}).getD t

/-- The local port of a link, 0 if it has none. -/
def port (t : LinkTable) (link : UInt8) : UInt16 := ((t.slot? link).map (·.port)).getD 0

end LinkTable

end EspWifi
