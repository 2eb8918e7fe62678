import EspWifi.Link.Device
import EspWifi.Link.Schedule

/-!
# A bench for the driver

On the bench the module is a script: bytes that arrive at given times, and replies that are
scheduled each time something was sent to it. Time is a count of ticks that moves only when the
clock is read or a delay is waited out, so a count of ticks says exactly how often the driver looked
at the clock.

* `Bench`: the state of the bench, which is a `Device`.
* `Stimulus`, `Bench.apply`: what can be done to the bench from outside.
-/

namespace EspWifi

/-- Bytes that arrive in one piece, a given time after they were scheduled. -/
abbrev Chunks := List (Nat × Bytes)

/-- A scripted module, a transmitter and a clock. -/
structure Bench where
  /-- Time passed since power-up. -/
  ticks : Nat := 0
  /-- What the clock showed at power-up. -/
  origin : UInt32 := 0
  /-- Ticks that pass with each reading of the clock. -/
  step : Nat := 1
  /-- The clock cannot sleep: a delay reads it over and over. -/
  busy : Bool := false
  /-- The link does not report receive errors. -/
  bare : Bool := false
  /-- Received bytes that wait to be read. -/
  rx : Bytes := []
  /-- Bytes that are still to arrive. -/
  arrivals : Schedule Bytes := {}
  /-- Bytes the link claims to have beyond those it has. -/
  ghost : Nat := 0
  /-- How many bytes the transmitter accepts in its next calls. -/
  limits : List Nat := []
  /-- The transmitter accepts nothing once the limits are used up. -/
  blocked : Bool := false
  /-- What the module sends in answer to the next calls that transmit something. -/
  replies : List Chunks := []
  /-- Bytes transmitted so far. -/
  sent : Bytes := []
  errors : ReceiveErrors := .empty
  verbosity : Verbosity := none
  /-- Log records, newest first. -/
  records : List (Level × String) := []

namespace Bench

/-- Move all that has arrived by now into the receive queue. -/
def deliver (b : Bench) : Bench :=
  match b.arrivals.due b.ticks with
  | ([], _) => b
  | (arrived, rest) => { b with rx := b.rx ++ arrived.flatten, arrivals := rest }

/-- Schedule chunks from now on. -/
def schedule (b : Bench) (chunks : Chunks) : Bench :=
  { b.deliver with arrivals := b.deliver.arrivals.addAll b.ticks chunks }.deliver

/-- How many of `n` bytes the transmitter accepts now, and the limits that remain. -/
def acceptance (b : Bench) (n : Nat) : Nat × List Nat :=
  match b.limits with
  | limit :: rest => (min limit n, rest)
  | [] => (if b.blocked then 0 else n, [])

/-- Offer bytes to the transmitter. If it takes any, the module answers with its next reply. -/
def transmit (b : Bench) (bytes : Bytes) : Nat × Bench :=
  let (n, limits) := b.acceptance bytes.length
  let b := { b with limits := limits, sent := b.sent ++ bytes.take n }
  match n, b.replies with
  | 0, _ | _, [] => (n, b)
  | _, reply :: rest => (n, { b with replies := rest }.schedule reply)

/-- Read the clock, which moves it. -/
def tick (b : Bench) : UInt32 × Bench :=
  (b.origin + b.ticks.toUInt32, { b with ticks := b.ticks + b.step })

/-- How many bytes there are in some pieces. -/
def total : List Bytes → Nat
  | [] => 0
  | piece :: pieces => piece.length + total pieces

/-- Bytes that are there or on their way. -/
def backlog (b : Bench) : Nat := b.rx.length + total b.arrivals.items

/-- Ticks until the last byte is there, and limits still to be met. -/
def settling (b : Bench) : Nat := (b.arrivals.latest - b.ticks) + b.limits.length

/-- The bench with a clock that can sleep. -/
@[reducible] def sleeper : Device Bench where
  available := modifyGet fun b => (b.deliver.rx.length + b.ghost, b.deliver)
  read := modifyGet fun b => (b.deliver.rx.head?, { b.deliver with rx := b.deliver.rx.tail })
  peek := modifyGet fun b => (b.deliver.rx.head?, b.deliver)
  write bytes := modifyGet fun b => b.transmit bytes
  takeErrors := modifyGet fun b =>
    if b.bare then (.empty, b) else (b.errors, { b with errors := .empty })
  millis := modifyGet tick
  delay ms := modify fun b => { b with ticks := b.ticks + ms.toNat }
  record level message := modify fun b =>
    if b.verbosity.keeps level then { b with records := (level, message) :: b.records } else b
  backlog := backlog
  settling := settling

/-- The bench as a device: a busy clock waits by reading itself. -/
instance : Device Bench :=
  { sleeper with
    delay := fun ms => do
      if (← get).busy then @busyWait Bench sleeper ms else sleeper.delay ms }

end Bench

/-- What can be done to the bench from outside. -/
inductive Stimulus where
  /-- Add a reply to those the module will send. -/
  | reply (chunks : Chunks)
  /-- Schedule chunks from now on. -/
  | inject (chunks : Chunks)
  /-- Latch receive errors. -/
  | flag (errors : ReceiveErrors)
  | clearRx
  | clearReplies
  | block (on : Bool)
  | limit (limits : List Nat)
  | clockStep (step : Nat)
  | ghost (n : Nat)

/-- The bench after a stimulus. -/
def Bench.apply (b : Bench) : Stimulus → Bench
  | .reply chunks => { b with replies := b.replies ++ [chunks] }
  | .inject chunks => b.schedule chunks
  | .flag errors => { b with errors := b.errors ∪ errors }
  | .clearRx => { b with rx := [] }
  | .clearReplies => { b with replies := [] }
  | .block on => { b with blocked := on }
  | .limit limits => { b with limits := b.limits ++ limits }
  | .clockStep step => { b with step := step }
  | .ghost n => { b with ghost := n }

end EspWifi
