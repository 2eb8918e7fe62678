import EspWifi.Board.Uart

/-!
# The transmitter of the serial link

A run of the link is any sequence of foreground calls and interrupts, each of them one step that
nothing interrupts. A history keeps, beside the link, the bytes the foreground was told were accepted
and the bytes that went into the transmit register.

* `TransmitOK`: what every step keeps.
* `transmit_conserves`: **nothing is lost, duplicated or reordered on its way to the register**, and a
  byte that waits is never stranded.
-/

namespace EspWifi

/-- One step of the serial link: a call of the foreground, or the interrupt. Looking at the receive
queue changes nothing, so it is no step. -/
inductive UartStep where
  | write (bytes : Bytes)
  | read
  | takeErrors
  | interrupt (status : UartStatus)

/-- The link, and what has gone through its transmitter. -/
structure TransmitHistory where
  uart : Uart
  /-- The accepted prefixes of all writes, in order. -/
  accepted : Bytes := []
  /-- The bytes written to the transmit register, in order. -/
  sent : Bytes := []

namespace TransmitHistory

/-- One step, and what it adds to the history. -/
def step (h : TransmitHistory) : UartStep → TransmitHistory
  | .write bytes =>
    let (n, uart) := h.uart.write bytes
    { h with uart, accepted := h.accepted ++ bytes.take n }
  | .read => { h with uart := h.uart.read.2 }
  | .takeErrors => { h with uart := h.uart.takeErrors.2 }
  | .interrupt status =>
    let (out, uart) := h.uart.interrupt status
    { h with uart, sent := h.sent ++ out.toList }

/-- The history of a run that begins by listening on the link `u`. -/
def run (u : Uart) (steps : List UartStep) : TransmitHistory :=
  steps.foldl step { uart := u.activate }

end TransmitHistory

namespace Uart

/-- The part of the interrupt that hands bytes over does not see what the receiver did. -/
theorem refill_receive (u : Uart) (s : UartStatus) :
    (u.receive s).tx = u.tx ∧ (u.receive s).txInterrupt = u.txInterrupt := by
  unfold receive
  split <;> exact ⟨rfl, rfl⟩

/-- **What the interrupt does to the transmitter**: nothing if it was not called for it; it disables
itself if nothing waits; else the oldest byte goes from the queue into the register. -/
theorem interrupt_cases (u : Uart) (s : UartStatus) :
    ((s.txReady && u.txInterrupt) = false ∧ (u.interrupt s).1 = none ∧
        (u.interrupt s).2.tx.bytes = u.tx.bytes ∧
        (u.interrupt s).2.txInterrupt = u.txInterrupt) ∨
      ((s.txReady && u.txInterrupt) = true ∧ (u.interrupt s).1 = none ∧ u.tx.bytes = [] ∧
        (u.interrupt s).2.tx.bytes = []) ∨
      ∃ b, (s.txReady && u.txInterrupt) = true ∧ (u.interrupt s).1 = some b ∧
        u.tx.bytes = b :: (u.interrupt s).2.tx.bytes ∧
        (u.interrupt s).2.txInterrupt = u.txInterrupt := by
  obtain ⟨htx, hen⟩ := u.refill_receive s
  have hpop := u.tx.bytes_pop
  have hfst : u.tx.pop.1 = u.tx.bytes.head? := rfl
  unfold interrupt refill
  rw [htx, hen]
  cases hcall : s.txReady && u.txInterrupt with
  | false => exact Or.inl ⟨rfl, rfl, by rw [← htx]; rfl, hen⟩
  | true =>
    refine Or.inr ?_
    rw [if_pos rfl]
    -- an empty queue disables the interrupt, any other one gives its oldest byte
    generalize u.tx.pop = p at hpop hfst
    obtain ⟨_ | b, tx⟩ := p
    · have hnil : u.tx.bytes = [] := List.head?_eq_none_iff.1 hfst.symm
      exact Or.inl ⟨rfl, rfl, hnil, by rw [← hnil, ← htx]⟩
    · exact Or.inr ⟨b, rfl, rfl, hpop.symm, rfl⟩

end Uart

/-- What every step of a run keeps. -/
structure TransmitOK (h : TransmitHistory) : Prop where
  /-- What was accepted has gone out or waits, in order. -/
  conserved : h.accepted = h.sent ++ h.uart.tx.bytes
  /-- As long as bytes wait, the empty register calls the interrupt. -/
  enabled : h.uart.tx.bytes ≠ [] → h.uart.txInterrupt = true

namespace TransmitOK

variable {h : TransmitHistory}

theorem start (u : Uart) : TransmitOK { uart := u.activate } :=
  ⟨rfl, fun hne => absurd rfl hne⟩

theorem write (hh : TransmitOK h) (bytes : Bytes) : TransmitOK (h.step (.write bytes)) where
  conserved := by
    have hq := h.uart.tx.bytes_fill bytes
    simp only [TransmitHistory.step, Uart.write]
    rw [hq, hh.conserved, List.append_assoc]
  enabled := by
    intro hne
    simp only [TransmitHistory.step, Uart.write] at hne ⊢
    simp [ByteQueue.isEmpty, hne]

theorem interrupt (hh : TransmitOK h) (s : UartStatus) : TransmitOK (h.step (.interrupt s)) := by
  have hc := hh.conserved
  rcases h.uart.interrupt_cases s with ⟨-, hout, hq, hen⟩ | ⟨-, hout, hw, hq⟩ | ⟨b, -, hout, hw, hen⟩
  · refine ⟨?_, ?_⟩ <;> simp only [TransmitHistory.step, hout, hq]
    · rw [hc]; simp
    · rw [hen]; exact hh.enabled
  · refine ⟨?_, ?_⟩ <;> simp only [TransmitHistory.step, hout, hq]
    · rw [hc, hw]; simp
    · exact fun hne => absurd rfl hne
  · refine ⟨?_, ?_⟩ <;> simp only [TransmitHistory.step, hout]
    · rw [hc, hw]; simp
    · rw [hen]; exact fun _ => hh.enabled (by simp [hw])

/-- **Every step keeps the transmitter in order**, whoever takes it. -/
theorem step (hh : TransmitOK h) (s : UartStep) : TransmitOK (h.step s) := by
  cases s with
  | write bytes => exact hh.write bytes
  | read => exact ⟨hh.conserved, hh.enabled⟩
  | takeErrors => exact ⟨hh.conserved, hh.enabled⟩
  | interrupt s => exact hh.interrupt s

theorem run (u : Uart) (steps : List UartStep) : TransmitOK (TransmitHistory.run u steps) := by
  unfold TransmitHistory.run
  have key : ∀ (l : List UartStep) (h : TransmitHistory), TransmitOK h →
      TransmitOK (l.foldl TransmitHistory.step h) := by
    intro l
    induction l with
    | nil => intro h hh; exact hh
    | cons s l ih => intro h hh; exact ih _ (hh.step s)
  exact key steps _ (start u)

end TransmitOK

/-- **The transmitter loses, duplicates and reorders nothing.** After any run of foreground calls and
interrupts, what was accepted is what was sent followed by what waits; the next write accepts the
first bytes of its slice, as many as there is room for; the register is written only by an interrupt
that finds it empty with its interrupt enabled; and while bytes wait that interrupt is enabled, so
that it sends the oldest of them. -/
theorem transmit_conserves (u : Uart) (steps : List UartStep) :
    let h := TransmitHistory.run u steps
    h.accepted = h.sent ++ h.uart.tx.bytes ∧
      (∀ bytes, (h.uart.write bytes).1 = min (uartQueueSize - h.uart.tx.length) bytes.length ∧
        (h.uart.write bytes).2.tx.bytes = h.uart.tx.bytes ++ bytes.take (h.uart.write bytes).1) ∧
      (∀ s b, (h.uart.interrupt s).1 = some b → s.txReady = true ∧ h.uart.txInterrupt = true) ∧
      (h.uart.tx.bytes ≠ [] → h.uart.txInterrupt = true) ∧
      ∀ s b rest, s.txReady = true → h.uart.tx.bytes = b :: rest →
        (h.uart.interrupt s).1 = some b ∧ (h.uart.interrupt s).2.tx.bytes = rest := by
  intro h
  have hok : TransmitOK h := TransmitOK.run u steps
  refine ⟨hok.conserved, ?_, ?_, hok.enabled, ?_⟩
  · intro bytes
    exact ⟨h.uart.tx.fill_fst bytes, h.uart.tx.bytes_fill bytes⟩
  · intro s b hb
    rcases h.uart.interrupt_cases s with ⟨-, hout, -⟩ | ⟨-, hout, -⟩ | ⟨_, hcall, -⟩
    · rw [hout] at hb; exact absurd hb (by simp)
    · rw [hout] at hb; exact absurd hb (by simp)
    · exact Bool.and_eq_true_iff.1 hcall
  · intro s b rest hr hw
    have hen := hok.enabled (by simp [hw])
    rcases h.uart.interrupt_cases s with ⟨hcall, -⟩ | ⟨-, -, hnil, -⟩ | ⟨c, -, hout, hq, -⟩
    · rw [hr, hen] at hcall; exact absurd hcall (by decide)
    · rw [hw] at hnil; exact absurd hnil (by simp)
    · rw [hw] at hq
      obtain ⟨rfl, hrest⟩ := List.cons.inj hq
      exact ⟨hout, hrest.symm⟩

end EspWifi
