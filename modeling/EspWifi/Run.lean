/-!
# Runs of a device program

A program acts on a state `σ` that holds the hardware it talks to. Its run either returns a value or
is cut short, and the state reached is kept in both cases.

* `Run σ α`: a program on `σ` with result `α`.
* `Run.loop`: a loop with a bound on its rounds; a loop that outlives its bound never returns.
* `Run.focus`: a program on a part, run inside the whole.
-/

namespace EspWifi

/-- Why a run ends without a result. -/
inductive Halt where
  /-- The supply was cut while the program was running. -/
  | powerOff
  /-- The program is in a wait that never ends. -/
  | stalled
  deriving DecidableEq

/-- A program on the state `σ`. -/
abbrev Run (σ α : Type) := EStateM Halt σ α

/-- What one round of a loop decides. -/
inductive Round (α β : Type) where
  /-- Go on with the next round, from this value. -/
  | again (a : α)
  /-- Leave the loop with this result. -/
  | finish (b : β)

namespace Run

variable {σ τ α β : Type}

/-- A loop of at most `n` rounds, from the value `a`. One that has not left by then is stalled. -/
def loop : Nat → (α → Run σ (Round α β)) → α → Run σ β
  | 0, _, _ => fun s => .error .stalled s
  | n + 1, body, a => fun s =>
    match body a s with
    | .ok (.again a') s' => loop n body a' s'
    | .ok (.finish b) s' => .ok b s'
    | .error h s' => .error h s'

/-- A loop without an exit: it ends only when the run is cut short. -/
def forever (n : Nat) (body : α → Run σ α) (a : α) : Run σ Empty :=
  loop n (fun a => do return .again (← body a)) a

/-- A program on the part `get t` of the state `t`; `put` stores the part it leaves behind. -/
@[inline] def focus (get : τ → σ) (put : σ → τ → τ) (m : Run σ α) : Run τ α := fun t =>
  match m (get t) with
  | .ok a s => .ok a (put s t)
  | .error h s => .error h (put s t)

end Run

end EspWifi
