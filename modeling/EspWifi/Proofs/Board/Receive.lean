import EspWifi.Proofs.Board.Transmit

/-!
# The receiver of the serial link

A log says what is seen of each step of a run: what the foreground is told, and what the interrupt
finds. It is all that is needed to tell which bytes and which errors the foreground gets.

* `Uart.observe`, `Uart.trace`: a step and what is seen of it, and the log of a run.
* `Uart.bytes_observe`, `Uart.errors_observe`: what one step does to the bytes and to the errors.
* `receive_reports_losses`: **a byte is lost only if it finds the queue full, and every loss is
  reported.**
-/

namespace EspWifi

/-- One step of the serial link, or a look at what was received. -/
inductive ReceiveStep where
  | act (step : UartStep)
  | peek
  | available

/-- What is seen of a step. -/
inductive ReceiveEvent where
  | wrote (accepted : Nat)
  /-- The foreground was given the oldest byte, if there was one. -/
  | read (byte : Option UInt8)
  /-- The foreground was told these errors. -/
  | took (errors : ReceiveErrors)
  /-- The interrupt ran while this many received bytes were queued. -/
  | interrupted (status : UartStatus) (queued : Nat)
  | peeked (byte : Option UInt8)
  | counted (n : Nat)

namespace ReceiveStep

def isLook : ReceiveStep → Bool
  | act _ => false
  | peek | available => true

end ReceiveStep

namespace ReceiveEvent

def isLook : ReceiveEvent → Bool
  | peeked _ | counted _ => true
  | _ => false

def isTake : ReceiveEvent → Bool
  | took _ => true
  | _ => false

/-- The byte that was given to the foreground. -/
def returned : ReceiveEvent → Bytes
  | read byte => byte.toList
  | _ => []

/-- The byte that was received, with the number of bytes it found in the queue. -/
def arrived : ReceiveEvent → List (UInt8 × Nat)
  | interrupted status queued => (status.received.map (·, queued)).toList
  | _ => []

/-- The errors the hardware reported. -/
def hardware : ReceiveEvent → ReceiveErrors
  | interrupted status _ => status.errors
  | _ => .empty

end ReceiveEvent

/-! ### What a log says -/

/-- The bytes that were given to the foreground, in order. -/
def returnedBytes (log : List ReceiveEvent) : Bytes := log.flatMap (·.returned)

/-- The bytes that were received, in order, each with the number of bytes it found in the queue. -/
def arrivals (log : List ReceiveEvent) : List (UInt8 × Nat) := log.flatMap (·.arrived)

/-- The bytes among those that did not find the queue full. -/
def keptBytes (log : List ReceiveEvent) : Bytes :=
  ((arrivals log).filter fun a => a.2 ≠ uartQueueSize).map Prod.fst

/-- A byte was received that found the queue full. -/
def lostByte (log : List ReceiveEvent) : Bool := (arrivals log).any fun a => a.2 == uartQueueSize

/-- The errors the hardware reported, all together. -/
def hardwareErrors (log : List ReceiveEvent) : ReceiveErrors :=
  log.foldr (fun event errors => event.hardware ∪ errors) .empty

/-- **The errors there are to report**: those of the hardware, and an overrun if a byte was lost. -/
def reportable (log : List ReceiveEvent) : ReceiveErrors :=
  hardwareErrors log ∪ { overrun := lostByte log }

theorem returnedBytes_cons (event : ReceiveEvent) (log : List ReceiveEvent) :
    returnedBytes (event :: log) = returnedBytes [event] ++ returnedBytes log := by
  simp [returnedBytes]

theorem keptBytes_cons (event : ReceiveEvent) (log : List ReceiveEvent) :
    keptBytes (event :: log) = keptBytes [event] ++ keptBytes log := by
  simp [keptBytes, arrivals]

theorem reportable_cons (event : ReceiveEvent) (log : List ReceiveEvent) :
    reportable (event :: log) = reportable [event] ∪ reportable log := by
  have hlost : lostByte (event :: log) = (lostByte [event] || lostByte log) := by
    simp [lostByte, arrivals]
  show ReceiveErrors.union (.union event.hardware (hardwareErrors log)) _ =
    ReceiveErrors.union (.union (.union event.hardware .empty) _) (.union (hardwareErrors log) _)
  rw [hlost]
  simp only [ReceiveErrors.union, ReceiveErrors.empty, Bool.or_false, ReceiveErrors.mk.injEq,
    true_and]
  ac_rfl

namespace Uart

/-- A step, and what is seen of it. -/
def observe (u : Uart) : ReceiveStep → ReceiveEvent × Uart
  | .act (.write bytes) => (.wrote (u.write bytes).1, (u.write bytes).2)
  | .act .read => (.read u.read.1, u.read.2)
  | .act .takeErrors => (.took u.takeErrors.1, u.takeErrors.2)
  | .act (.interrupt status) => (.interrupted status u.rx.length, (u.interrupt status).2)
  | .peek => (.peeked u.rx.peek, u)
  | .available => (.counted u.rx.length, u)

/-- The log of a run, and the link after it. -/
def trace (u : Uart) : List ReceiveStep → List ReceiveEvent × Uart
  | [] => ([], u)
  | step :: steps =>
    let (log, v) := (u.observe step).2.trace steps
    ((u.observe step).1 :: log, v)

/-! ### What one step does -/

/-- The part of the interrupt that hands bytes over leaves the receiver alone. -/
theorem rx_interrupt (u : Uart) (s : UartStatus) : (u.interrupt s).2.rx = (u.receive s).rx := by
  unfold interrupt refill
  split
  · split <;> rfl
  · rfl

/-- **A received byte goes to the end of the queue unless the queue is full.** -/
theorem bytes_receive (u : Uart) (s : UartStatus) :
    (u.receive s).rx.bytes = u.rx.bytes ++ keptBytes [.interrupted s u.rx.length] := by
  obtain ⟨errors, _ | b, ready⟩ := s
  · exact (List.append_nil _).symm
  have hle := u.rx.length_le
  show ((u.rx.flag errors).push b).2.bytes = _
  rw [ByteQueue.bytes_push]
  by_cases hfull : u.rx.bytes.length = uartQueueSize
  · rw [if_neg (by simp [ByteQueue.flag, hfull])]
    simp [ByteQueue.flag, ByteQueue.length, keptBytes, arrivals, ReceiveEvent.arrived, hfull]
  · rw [if_pos (by simp only [ByteQueue.flag]; omega)]
    simp [ByteQueue.flag, ByteQueue.length, keptBytes, arrivals, ReceiveEvent.arrived, hfull]

/-- **What the hardware reports is latched, and an overrun with it if a byte is dropped.** -/
theorem errors_receive (u : Uart) (s : UartStatus) :
    (u.receive s).rx.errors = u.rx.errors ∪ reportable [.interrupted s u.rx.length] := by
  obtain ⟨errors, _ | b, ready⟩ := s
  · show u.rx.errors ∪ errors = u.rx.errors ∪ (errors ∪ .empty ∪ .empty)
    rw [ReceiveErrors.union_empty, ReceiveErrors.union_empty]
  have hle := u.rx.length_le
  have hlost : reportable [.interrupted ⟨errors, some b, ready⟩ u.rx.length] =
      errors ∪ { overrun := u.rx.bytes.length == uartQueueSize } := by
    simp [reportable, hardwareErrors, ReceiveEvent.hardware, ReceiveErrors.union_empty, lostByte,
      arrivals, ReceiveEvent.arrived, ByteQueue.length]
  show ((u.rx.flag errors).push b).2.errors = _
  rw [ByteQueue.errors_push, hlost, ← ReceiveErrors.union_assoc]
  by_cases hfull : u.rx.bytes.length = uartQueueSize
  · rw [if_neg (by simp [ByteQueue.flag, hfull]), hfull, beq_self_eq_true]
    rfl
  · rw [if_pos (by simp only [ByteQueue.flag]; omega), beq_false_of_ne hfull]
    exact (ReceiveErrors.union_empty _).symm

/-- **What is returned and what is still queued is what was queued, and what is kept.** -/
theorem bytes_observe (u : Uart) (step : ReceiveStep) :
    returnedBytes [(u.observe step).1] ++ (u.observe step).2.rx.bytes =
      u.rx.bytes ++ keptBytes [(u.observe step).1] := by
  cases step with
  | peek => exact (List.append_nil _).symm
  | available => exact (List.append_nil _).symm
  | act step =>
    cases step with
    | write bytes => exact (List.append_nil _).symm
    | takeErrors => exact (List.append_nil _).symm
    | read =>
      have hpop : u.read.1.toList ++ u.read.2.rx.bytes = u.rx.bytes := u.rx.bytes_pop
      simpa [observe, returnedBytes, keptBytes, arrivals, ReceiveEvent.returned,
        ReceiveEvent.arrived] using hpop
    | interrupt s =>
      show (u.interrupt s).2.rx.bytes = _
      rw [rx_interrupt, bytes_receive]
      rfl

/-- **Errors gather until they are taken.** -/
theorem errors_observe (u : Uart) (step : ReceiveStep) (h : (u.observe step).1.isTake = false) :
    (u.observe step).2.rx.errors = u.rx.errors ∪ reportable [(u.observe step).1] := by
  have hempty : u.rx.errors = u.rx.errors ∪ .empty := (ReceiveErrors.union_empty _).symm
  cases step with
  | peek => exact hempty
  | available => exact hempty
  | act step =>
    cases step with
    | write bytes => exact hempty
    | read => exact hempty
    | takeErrors => exact absurd h (by simp [observe, ReceiveEvent.isTake])
    | interrupt s =>
      show (u.interrupt s).2.rx.errors = _
      rw [rx_interrupt, errors_receive]
      rfl

/-- Errors that are taken are those that were latched, and none stay behind. -/
theorem observe_take {u : Uart} {step : ReceiveStep} (h : (u.observe step).1.isTake = true) :
    (u.observe step).1 = .took u.rx.errors ∧ (u.observe step).2.rx.errors = .empty := by
  cases step with
  | peek => exact absurd h (by simp [observe, ReceiveEvent.isTake])
  | available => exact absurd h (by simp [observe, ReceiveEvent.isTake])
  | act step =>
    cases step with
    | takeErrors => exact ⟨rfl, rfl⟩
    | _ => exact absurd h (by simp [observe, ReceiveEvent.isTake])

/-- A look changes nothing. -/
theorem observe_look {u : Uart} {step : ReceiveStep} (h : step.isLook = true) :
    (u.observe step).1.isLook = true ∧ (u.observe step).2 = u := by
  cases step with
  | act step => exact absurd h (by simp [ReceiveStep.isLook])
  | _ => exact ⟨rfl, rfl⟩

theorem isLook_observe (u : Uart) (step : ReceiveStep) :
    (u.observe step).1.isLook = step.isLook := by
  cases step with
  | act step => cases step <;> rfl
  | _ => rfl

/-! ### What a run does -/

theorem trace_cons (u : Uart) (step : ReceiveStep) (steps : List ReceiveStep) :
    u.trace (step :: steps) =
      ((u.observe step).1 :: ((u.observe step).2.trace steps).1,
        ((u.observe step).2.trace steps).2) := rfl

/-- **Nothing is lost, duplicated or reordered among the bytes that are kept.** -/
theorem bytes_trace (u : Uart) (steps : List ReceiveStep) :
    returnedBytes (u.trace steps).1 ++ (u.trace steps).2.rx.bytes =
      u.rx.bytes ++ keptBytes (u.trace steps).1 := by
  induction steps generalizing u with
  | nil => exact (List.append_nil _).symm
  | cons step steps ih =>
    rw [trace_cons, returnedBytes_cons, keptBytes_cons, List.append_assoc, ih, ← List.append_assoc,
      bytes_observe, List.append_assoc]

/-- **Errors that are taken are those there were to report since they were taken before.** -/
theorem took_trace {u : Uart} {steps : List ReceiveStep} {since after : List ReceiveEvent}
    {e : ReceiveErrors} (h : (u.trace steps).1 = since ++ .took e :: after)
    (hsince : ∀ event ∈ since, event.isTake = false) :
    e = u.rx.errors ∪ reportable since := by
  induction since generalizing u steps with
  | nil =>
    cases steps with
    | nil => exact absurd h (by simp [trace])
    | cons step steps =>
      obtain ⟨hevent, -⟩ := List.cons.inj h
      have htake : (u.observe step).1.isTake = true := by rw [hevent]; rfl
      rw [(observe_take htake).1] at hevent
      obtain rfl := ReceiveEvent.took.inj hevent
      exact (ReceiveErrors.union_empty _).symm
  | cons event since ih =>
    cases steps with
    | nil => exact absurd h (by simp [trace])
    | cons step steps =>
      obtain ⟨rfl, hrest⟩ := List.cons.inj h
      have hfirst := hsince _ List.mem_cons_self
      rw [ih hrest fun event he => hsince event (List.mem_cons_of_mem _ he),
        errors_observe u step hfirst, ReceiveErrors.union_assoc, ← reportable_cons]

/-- A log that begins with some events goes on as the log of the link after them. -/
theorem trace_split {u : Uart} {steps : List ReceiveStep} {before rest : List ReceiveEvent}
    (h : (u.trace steps).1 = before ++ rest) :
    ∃ first more, steps = first ++ more ∧ (u.trace first).1 = before ∧
      ((u.trace first).2.trace more).1 = rest := by
  induction before generalizing u steps with
  | nil => exact ⟨[], steps, rfl, rfl, h⟩
  | cons event before ih =>
    cases steps with
    | nil => exact absurd h (by simp [trace])
    | cons step steps =>
      obtain ⟨rfl, hrest⟩ := List.cons.inj h
      obtain ⟨first, more, rfl, hfirst, hmore⟩ := ih hrest
      exact ⟨step :: first, more, rfl, by rw [trace_cons, hfirst], hmore⟩

theorem trace_append (u : Uart) (first more : List ReceiveStep) :
    u.trace (first ++ more) =
      ((u.trace first).1 ++ ((u.trace first).2.trace more).1, ((u.trace first).2.trace more).2) := by
  induction first generalizing u with
  | nil => rfl
  | cons step first ih => rw [List.cons_append, trace_cons, ih, trace_cons, List.cons_append]

/-- After a run that ends with taking the errors, and at the start, there are none. -/
theorem errors_after_take {u : Uart} {steps : List ReceiveStep} (hu : u.rx.errors = .empty)
    (h : ∀ event ∈ (u.trace steps).1.getLast?, event.isTake = true) :
    (u.trace steps).2.rx.errors = .empty := by
  rcases List.eq_nil_or_concat steps with rfl | ⟨steps, step, rfl⟩
  · exact hu
  · rw [List.concat_eq_append, trace_append] at h ⊢
    refine (observe_take (h _ ?_)).2
    rw [trace_cons, List.getLast?_append]
    rfl

/-- **Looks leave no trace but their own.** -/
theorem trace_filter_look (u : Uart) (steps : List ReceiveStep) :
    u.trace (steps.filter fun step => !step.isLook) =
      ((u.trace steps).1.filter fun event => !event.isLook, (u.trace steps).2) := by
  induction steps generalizing u with
  | nil => rfl
  | cons step steps ih =>
    rw [trace_cons]
    cases hl : step.isLook with
    | true =>
      obtain ⟨hevent, hu⟩ := observe_look (u := u) hl
      rw [List.filter_cons_of_neg (by simp [hl]), List.filter_cons_of_neg (by simp [hevent]), hu, ih]
    | false =>
      have hevent := u.isLook_observe step
      rw [hl] at hevent
      rw [List.filter_cons_of_pos (by simp [hl]), List.filter_cons_of_pos (by simp [hevent]),
        trace_cons, ih]

end Uart

/-- **A received byte is lost only if it finds the queue full, and every loss is reported.** After any
run of foreground calls and interrupts that begins by listening on the link, the bytes that were
read and those that are still queued are the bytes that were received, in order, but for those that
found the queue full. The errors that are taken are those that the hardware reported since they
were last taken, with an overrun if a byte was lost since then. Without its looks at the queue the
run is the same. -/
theorem receive_reports_losses (u : Uart) (steps : List ReceiveStep) :
    let log := (u.activate.trace steps).1
    let v := (u.activate.trace steps).2
    returnedBytes log ++ v.rx.bytes =
        ((arrivals log).filter fun a => a.2 ≠ uartQueueSize).map Prod.fst ∧
      (∀ before since after e, log = before ++ since ++ .took e :: after →
        (∀ event ∈ before.getLast?, event.isTake = true) →
        (∀ event ∈ since, event.isTake = false) →
        e = hardwareErrors since ∪
          { overrun := (arrivals since).any fun a => a.2 == uartQueueSize }) ∧
      u.activate.trace (steps.filter fun step => !step.isLook) =
        (log.filter fun event => !event.isLook, v) := by
  intro log v
  refine ⟨u.activate.bytes_trace steps, ?_, u.activate.trace_filter_look steps⟩
  intro before since after e hlog hbefore hsince
  rw [List.append_assoc] at hlog
  obtain ⟨first, more, rfl, rfl, hmore⟩ := Uart.trace_split hlog
  have hnone := Uart.errors_after_take (u := u.activate) rfl hbefore
  have htook := Uart.took_trace hmore hsince
  rwa [hnone, ReceiveErrors.empty_union] at htook

end EspWifi
