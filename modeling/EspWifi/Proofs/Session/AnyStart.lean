import EspWifi.Proofs.Session.Relative
import EspWifi.Session.Bench

/-!
# The start of the clock

The clock of a bench starts anywhere in its range and wraps around at the end of it. A session cannot
tell where it started: benches that differ in nothing else are twins.

* `Bench.ahead`: a bench whose clock is ahead; `Bench.twinDevices`: it behaves as before.
* `Session.Event`, `Session.Seen`: what happens to a session, and what is seen of it.
* `Session.play`: all that is seen of a session.
* `Session.play_startAt`: **what is seen does not depend on the start of the clock.**
-/

namespace EspWifi

open Run

namespace Bench

/-- The bench with a clock that is ahead by `lead`. -/
def ahead (lead : UInt32) (b : Bench) : Bench := { b with origin := b.origin + lead }

/-- The bench with a clock that showed `start` at power-up. -/
def startAt (start : UInt32) (b : Bench) : Bench := { b with origin := start }

variable (lead : UInt32) (b : Bench)

/-! ### What does not depend on the clock -/

theorem deliver_ahead : (b.ahead lead).deliver = b.deliver.ahead lead := by
  have hdue : (b.ahead lead).arrivals.due (b.ahead lead).ticks = b.arrivals.due b.ticks := rfl
  unfold deliver
  rw [hdue]
  obtain ⟨arrived, rest⟩ := b.arrivals.due b.ticks
  cases arrived <;> rfl

theorem schedule_ahead (chunks : Chunks) :
    (b.ahead lead).schedule chunks = (b.schedule chunks).ahead lead := by
  unfold schedule
  rw [deliver_ahead]
  exact deliver_ahead lead
    { b.deliver with arrivals := b.deliver.arrivals.addAll b.ticks chunks }

theorem transmit_ahead (bytes : Bytes) :
    (b.ahead lead).transmit bytes = ((b.transmit bytes).1, (b.transmit bytes).2.ahead lead) := by
  have haccept : (b.ahead lead).acceptance bytes.length = b.acceptance bytes.length := rfl
  have hreplies : (b.ahead lead).replies = b.replies := rfl
  unfold transmit
  rw [haccept]
  generalize b.acceptance bytes.length = accepted
  obtain ⟨n, limits⟩ := accepted
  dsimp only
  rw [hreplies]
  cases n with
  | zero => rfl
  | succ n =>
    cases hr : b.replies with
    | nil => rfl
    | cons reply rest =>
      exact congrArg (Prod.mk _) (schedule_ahead lead { b with
        limits := limits, sent := b.sent ++ bytes.take (n + 1), replies := rest } reply)

/-- What is done to a bench from outside does not depend on its clock. -/
theorem apply_ahead (x : Stimulus) : (b.ahead lead).apply x = (b.apply x).ahead lead := by
  cases x with
  | inject chunks => exact schedule_ahead lead b chunks
  | _ => rfl

theorem clocksApart : ClocksApart (fun b b' => b' = ahead lead b) lead := by
  rintro b _ rfl
  have : b.origin + lead + b.ticks.toUInt32 = b.origin + b.ticks.toUInt32 + lead := by grind
  exact ⟨this, rfl⟩

/-- A program that does the same whatever its clock shows. -/
theorem blind_modifyGet {α : Type} {f : Bench → α × Bench}
    (h : ∀ b : Bench, f (b.ahead lead) = ((f b).1, (f b).2.ahead lead)) :
    Blind (fun b b' => b' = ahead lead b) (modifyGet f) := by
  refine .modifyGet ?_
  rintro b _ rfl
  rw [h b]
  exact ⟨rfl, rfl⟩

/-- **Benches whose clocks are apart are twins.** -/
def twinDevices : TwinDevices Bench where
  rel b b' := b' = b.ahead lead
  lead := lead
  available := blind_modifyGet lead fun b => by rw [deliver_ahead]; rfl
  read := blind_modifyGet lead fun b => by rw [deliver_ahead]; rfl
  peek := blind_modifyGet lead fun b => by rw [deliver_ahead]; rfl
  write bytes := blind_modifyGet lead fun b => b.transmit_ahead lead bytes
  takeErrors := blind_modifyGet lead fun b => by
    show (if b.bare then _ else _) = _
    split <;> rfl
  record level message := .modify <| by
    rintro b _ rfl
    show (if b.verbosity.keeps level then _ else _) = _
    split <;> rfl
  millis := clocksApart lead
  delay ms := .get_bind <| by
    rintro b _ rfl
    show Lockstep _ _ (if b.busy then @busyWait Bench sleeper ms else sleeper.delay ms)
      (if b.busy then @busyWait Bench sleeper ms else sleeper.delay ms)
    refine .ite (@ClocksApart.busyWait Bench sleeper _ _ (clocksApart lead) ms) (.modify ?_)
    rintro b _ rfl
    rfl
  backlog := by
    rintro b _ rfl
    rfl
  settling := by
    rintro b _ rfl
    rfl

end Bench

namespace Session

/-! ### What is seen of a session -/

/-- What happens to a session on a bench. -/
inductive Event where
  /-- Something is done to the bench. -/
  | stimulus (x : Stimulus)
  /-- An operation is carried out. -/
  | operation (a : Action)

/-- What is seen of a session after an event. -/
structure Seen where
  /-- The answer to an operation, unless it is a reading of the clock. -/
  reply : Option Reply
  /-- All bytes transmitted so far. -/
  sent : Bytes
  /-- Received bytes that wait to be read. -/
  waiting : Bytes
  /-- Time passed since power-up. -/
  ticks : Nat
  packet : Packet
  links : LinkTable
  server : Server
  clients : Nat → Client
  udps : Nat → Udp
  /-- Log records, newest first. -/
  records : List (Level × String)

/-- The session with something done to its bench. -/
def onBench (f : Bench → Bench) (s : Session Bench) : Session Bench :=
  OnDevice.replace (f s.wifi.device) s

/-- The session on a clock that showed `start` at power-up. -/
def startAt (start : UInt32) (s : Session Bench) : Session Bench := s.onBench (·.startAt start)

/-- What is seen now. -/
def seen (reply : Option Reply) (s : Session Bench) : Seen where
  reply := reply
  sent := s.wifi.device.sent
  waiting := s.wifi.device.rx
  ticks := s.wifi.device.ticks
  packet := s.wifi.driver.packet
  links := s.wifi.links
  server := s.server
  clients := s.clients
  udps := s.udps
  records := s.wifi.device.records

/-- Receive what has arrived by now, and look. -/
def look (reply : Option Reply) : Run (Session Bench) Seen := do
  modify (onBench Bench.deliver)
  return seen reply (← get)

/-- **An event, and what is seen after it.** -/
def step : Event → Run (Session Bench) Seen
  | .stimulus x => do
    modify (onBench (·.apply x))
    look none
  | .operation a => do
    let reply ← perform a
    look (if a.readsClock then none else some reply)

/-- **All that is seen of a session while events happen**, up to an operation that does not end. -/
def play (s : Session Bench) : List Event → List (Except Halt Seen)
  | [] => []
  | e :: events =>
    match step e s with
    | .ok seen s' => .ok seen :: play s' events
    | .error h _ => [.error h]

/-! ### The start of the clock -/

variable {lead : UInt32}

theorem relative_onBench {f : Bench → Bench}
    (h : ∀ b : Bench, f (b.ahead lead) = (f b).ahead lead) :
    (modify (onBench f) : Run (Session Bench) Unit).Relative (Bench.twinDevices lead) := by
  refine Lockstep.modify ?_
  rintro s _ ⟨_, rfl, rfl⟩
  exact ⟨_, rfl, congrArg (OnDevice.replace · s) (h s.wifi.device)⟩

theorem relative_look (reply : Option Reply) : (look reply).Relative (Bench.twinDevices lead) := by
  refine .bind (relative_onBench (Bench.deliver_ahead lead)) fun _ => Lockstep.get_bind ?_
  rintro s _ ⟨_, rfl, rfl⟩
  exact .pure _

/-- **What is seen after an event does not depend on how far the clock is ahead.** -/
theorem relative_step (e : Event) : (step e).Relative (Bench.twinDevices lead) := by
  cases e with
  | stimulus x =>
    exact .bind (relative_onBench fun b => b.apply_ahead lead x) fun _ => relative_look none
  | operation a =>
    intro s s' h
    refine both_bind (both_mono (both_perform a h) ?_)
    rintro reply t reply' t' ⟨hreply, ht⟩
    -- an answer that may differ is not shown
    have hshown : (if a.readsClock then none else some reply) =
        if a.readsClock then none else some reply' := by
      split
      · rfl
      · rename_i hclock
        rw [hreply (Bool.not_eq_true _ ▸ hclock)]
    rw [hshown]
    exact relative_look _ t t' ht

theorem play_alike (events : List Event) {s s' : Session Bench}
    (h : (Bench.twinDevices lead).Alike s s') : play s events = play s' events := by
  induction events generalizing s s' with
  | nil => rfl
  | cons e events ih =>
    have hstep := relative_step e s s' h
    unfold play
    cases hs : step e s with
    | ok seen t =>
      obtain ⟨_, t', hs', rfl, ht⟩ := both_of_ok hstep hs
      rw [hs']
      exact congrArg (_ :: ·) (ih ht)
    | error halt t =>
      obtain ⟨t', hs'⟩ := both_of_error hstep hs
      rw [hs']

/-- **A session cannot tell where its clock started.** Whatever happens to it, all that is seen of it is
the same from any two starts of the clock, with wrap-arounds during waits or without: the answers, the
bytes that are transmitted and those that wait, the packet, the links and the handles, the log, and the
number of ticks after each event. -/
theorem play_startAt (s : Session Bench) (a b : UInt32) (events : List Event) :
    play (s.startAt a) events = play (s.startAt b) events := by
  have hahead : (s.wifi.device.startAt a).ahead (b - a) = s.wifi.device.startAt b := by
    have : a + (b - a) = b := by grind
    exact congrArg (fun origin => s.wifi.device.startAt origin) this
  have halike : (Bench.twinDevices (b - a)).Alike (s.startAt a) (s.startAt b) :=
    ⟨s.wifi.device.startAt b, hahead.symm, (OnDevice.replace_replace _ _ s).symm⟩
  exact play_alike events halike

/-- The clock wraps around during this wait, which ends after 5 ms as any other does. -/
example : (play (startAt (0 - 3) { wifi := .ofDevice {} {} })
    [.operation (.engine (.awaitByte 5))]).map (Except.map fun s => (s.reply, s.ticks)) =
      [.ok (some (.byte none), 6)] := by cbv

end Session

end EspWifi
