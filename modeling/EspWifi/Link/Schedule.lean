/-!
# Schedules

Things that are due at a time, earliest first; among things due at the same time the one scheduled
first comes first.
-/

namespace EspWifi

/-- Things due at a time, in the order in which they will happen. -/
structure Schedule (α : Type) where
  entries : List (Nat × α) := []

namespace Schedule

variable {α : Type}

/-- Place an entry after all that are due no later. -/
def insert (due : Nat) (a : α) : List (Nat × α) → List (Nat × α)
  | [] => [(due, a)]
  | (d, b) :: rest => if due < d then (due, a) :: (d, b) :: rest else (d, b) :: insert due a rest

/-- Schedule `a` for the time `due`. -/
def add (s : Schedule α) (due : Nat) (a : α) : Schedule α := ⟨insert due a s.entries⟩

/-- Schedule several things, each a given time after `now`. -/
def addAll (s : Schedule α) (now : Nat) (items : List (Nat × α)) : Schedule α :=
  items.foldl (fun s item => s.add (now + item.1) item.2) s

/-- All that is due by `now`, in order, and what remains. -/
def due (s : Schedule α) (now : Nat) : List α × Schedule α :=
  ((s.entries.takeWhile (·.1 ≤ now)).map (·.2), ⟨s.entries.dropWhile (·.1 ≤ now)⟩)

/-- When the last thing is due, 0 if nothing is to come. -/
def latest (s : Schedule α) : Nat := s.entries.foldl (fun t entry => max t entry.1) 0

/-- The things still to come. -/
def items (s : Schedule α) : List α := s.entries.map (·.2)

end Schedule

end EspWifi
