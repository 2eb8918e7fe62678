import EspWifi.Proofs.At.Patience
import EspWifi.Proofs.At.Spelling

/-!
# What reads take in

Bytes reach a bench at any times, and what is read is taken from the front of one stream. A read that is
cut short by its timeout has taken some bytes too, and these alone say what it makes of them.

* `Engine.Takes`: some bytes were taken from the stream of an engine.
* `Scan.Taken`, `Scan.outcome`: bytes that a scan can have taken, and how it ends that has taken them.
* `Engine.wp_awaitTag_takes`, `Engine.wp_readInt_takes`: **scans and numbers.** Both return on a clock that
  passes their timeouts.
-/

namespace EspWifi

open Run

namespace Scan

variable {tag : Option Bytes} {known : Bool} {c : Bytes} {s : Scan}

/-- **A scan can have taken these bytes**: it has gone on after each of their proper beginnings. -/
def Taken (tag : Option Bytes) (known : Bool) (c : Bytes) : Prop :=
  ∀ p, p <+: c → p ≠ c → of p tag known = none

/-- **How a scan ends that has taken these bytes**: with their verdict, or else out of time. -/
def outcome (tag : Option Bytes) (known : Bool) (c : Bytes) : Scan := (of c tag known).getD .timedOut

theorem outcome_eq_iff (hs : s ≠ .timedOut) : outcome tag known c = s ↔ of c tag known = some s := by
  unfold outcome
  cases h : of c tag known with
  | none => simp [Ne.symm hs]
  | some s' => simp

theorem outcome_eq_timedOut_iff : outcome tag known c = .timedOut ↔ of c tag known = none := by
  unfold outcome
  cases h : of c tag known with
  | none => simp
  | some s' =>
    have hne : s' ≠ .timedOut := by
      rintro rfl
      exact verdict_ne_timedOut h
    simp [hne]

/-- Bytes that were taken and have a verdict are decided by it. -/
theorem Taken.decided (h : Taken tag known c) (hs : of c tag known = some s) :
    Decided tag known c s := ⟨hs, h⟩

theorem Decided.outcome_eq (h : Decided tag known c s) : outcome tag known c = s := by
  rw [outcome, h.verdict, Option.getD_some]

theorem Silent.taken (h : Silent tag known c) : Taken tag known c := fun p hp _ => h p hp

end Scan

namespace Numeral

variable {n : Numeral} {b : UInt8}

/-- A number that has grown too large to go on with does not fit into 32 bits. -/
theorem result_eq_none_of_overflow (h : n.next b = .overflow) : n.result = none := by
  have hlarge : accumulatorLimit < n.value * 10 + (b - ascii '0').toNat := by
    unfold next at h
    split at h
    · cases h
    · split at h
      · dsimp only at h
        split at h
        · cases h
        · omega
      · cases h
  have hdigit := (b - ascii '0').toNat_lt
  unfold accumulatorLimit at hlarge
  rw [Option.eq_none_iff_forall_ne_some]
  intro i hi
  obtain ⟨-, hvalue, hmin, hmax⟩ := result_eq_some_iff.1 hi
  unfold int32Min at hmin
  unfold int32Max at hmax
  split at hvalue <;> omega

end Numeral

namespace Bench

variable {b : Bench}

/-- When all bytes have arrived, the stream is what waits. -/
theorem Holds.stream {w : Bytes} (h : b.Holds w) : b.stream = w := by
  unfold Bench.stream
  rw [h.rx, h.arrivals]
  exact List.append_nil w

/-- A byte that waits at the front is still there when more has arrived. -/
theorem head?_rx_deliver {x : UInt8} (h : b.rx.head? = some x) : b.deliver.rx.head? = some x := by
  rw [deliver_eq, List.head?_append, h]
  rfl

end Bench

namespace Engine

variable {cut : Prop} {e e' e'' : Engine Bench} {c c' : Bytes} {timeout : UInt32} {x : UInt8}

/-- **The bytes `c` were taken from the stream**, and the timeouts pass as they did before. -/
structure Takes (e e' : Engine Bench) (c : Bytes) : Prop where
  stream : e.device.stream = c ++ e'.device.stream
  timeouts : e'.timeouts = e.timeouts
  step : e'.device.step = e.device.step

namespace Takes

theorem refl (e : Engine Bench) : e.Takes e [] := ⟨rfl, rfl, rfl⟩

theorem trans (h : e.Takes e' c) (h' : e'.Takes e'' c') : e.Takes e'' (c ++ c') where
  stream := by rw [h.stream, h'.stream, List.append_assoc]
  timeouts := h'.timeouts.trans h.timeouts
  step := h'.step.trans h.step

/-- A step that takes nothing adds nothing. -/
theorem still (h : e.Takes e' c) (h' : e'.Takes e'' []) : e.Takes e'' c := by
  have hboth := h.trans h'
  rwa [List.append_nil] at hboth

theorem passes (h : e.Takes e' c) (hpasses : e.device.Passes timeout) : e'.device.Passes timeout :=
  hpasses.of_step h.step

end Takes

/-- **What a scan takes**, and how it ends. -/
theorem wp_awaitTag_takes {tag : Option Bytes} {known : Bool} :
    wp (¬ e.device.Passes timeout) (awaitTag timeout tag known) (fun s e' => ∃ c, e.Takes e' c ∧
      e'.window = .last c ∧ Scan.Taken tag known c ∧ s = Scan.outcome tag known c) e := by
  have htakes : wp True (awaitTag timeout tag known) (fun s e' => ∃ c,
      e.device.stream = c ++ e'.device.stream ∧ e'.timeouts = e.timeouts ∧ e'.window = .last c ∧
        Scan.Taken tag known c ∧ s = Scan.outcome tag known c) e := by
    refine Bench.streamLedger.wp_awaitTag_decided (fun c s e' h hw hs => ?_) fun c e' h hw hs => ?_
    · exact ⟨c, (h.device rfl).stream, h.timeouts, hw, hs.first, hs.outcome_eq.symm⟩
    · have hnone : Scan.of c tag known = none := hs c (List.prefix_refl c)
      exact ⟨c, (h.device rfl).stream, h.timeouts, hw, hs.taken,
        (Scan.outcome_eq_timedOut_iff.2 hnone).symm⟩
  have hpace : wp True (awaitTag timeout tag known)
      (fun _ e' => e'.device.step = e.device.step) e :=
    Bench.pace.wp_awaitTag_decided (fun _ _ _ h _ _ => h.device) fun _ _ h _ _ => h.device
  refine wp_mono (wp_and htakes (wp_and hpace wp_awaitTag_clock)) ?_
  rintro s e' ⟨⟨c, hstream, htimeouts, hw, hc, hs⟩, hstep, -⟩
  exact ⟨c, ⟨hstream, htimeouts, hstep⟩, hw, hc, hs⟩

/-- **A wait takes what its last try takes**, as the tries that give nothing take nothing. It ends with its
timeout. -/
theorem wp_await_takes {op : Run Bench (Option UInt8)} (taken : Option UInt8 → Bytes)
    (Left : UInt8 → Bench → Prop)
    (hop : ∀ b, wp False op (fun r b' => b.After b' 0 ∧ b.stream = taken r ++ b'.stream ∧
      ∀ x ∈ r, Left x b') b) (hnone : taken none = []) :
    wp (¬ e.device.Passes timeout) (await op timeout) (fun r e' => e.Takes e' (taken r) ∧
      ∀ x ∈ r, Left x e'.device) e := by
  have looked {b : Bench} (h : e.Takes { e with device := b } []) :
      e.Takes { e with device := b.tick.2 } [] := ⟨h.stream, h.timeouts, h.step⟩
  refine wp_await_of (I := fun _ b => e.Takes { e with device := b } [])
    (J := fun _ b => e.Takes { e with device := b } []) (looked (.refl e)) ?_ ?_ ?_
  · intro k b htakes _
    refine wp_mono (hop b) ?_
    rintro r b' ⟨hsame, hstream, hleft⟩
    have htried : e.Takes { e with device := b' } (taken r) :=
      htakes.trans ⟨hstream, rfl, hsame.step⟩
    refine ⟨hsame, ?_⟩
    cases r with
    | some x => exact ⟨htried, hleft⟩
    | none => exact hnone ▸ htried
  · intro k b htakes _ _
    refine ⟨?_, fun x hx => absurd hx (Option.not_mem_none x)⟩
    rw [hnone]
    exact looked htakes
  · exact fun k b htakes _ _ => looked htakes

/-- **A look at the next byte takes nothing.** A byte that it shows waits at the front. -/
theorem wp_awaitPeek_takes :
    wp (¬ e.device.Passes timeout) (awaitPeek timeout) (fun r e' => e.Takes e' [] ∧
      ∀ x ∈ r, e'.device.rx.head? = some x) e := by
  rw [awaitPeek_eq]
  refine wp_await_takes (fun _ => []) (fun x b => b.rx.head? = some x) (fun b => ?_) rfl
  rw [Bench.wp_peek]
  exact ⟨(Bench.After.refl b).deliver, b.stream_deliver.symm, fun _ hx => hx⟩

/-- **A wait for a byte takes that byte.** -/
theorem wp_awaitByte_takes :
    wp (¬ e.device.Passes timeout) (awaitByte timeout) (fun r e' => e.Takes e' r.toList) e := by
  rw [awaitByte_eq]
  refine wp_mono (wp_await_takes Option.toList (fun _ _ => True) (fun b => ?_) rfl)
    fun _ _ h => h.1
  rw [Bench.wp_read]
  have hdelivered := (Bench.After.refl b).deliver
  exact ⟨⟨hdelivered.ticks, hdelivered.origin, hdelivered.step⟩, b.flow_read.stream, fun _ _ => trivial⟩

/-- **A byte that waits at the front is taken.** -/
theorem wp_read_takes {Q : Option UInt8 → Engine Bench → Prop} (h : e.device.rx.head? = some x)
    (hQ : ∀ e', e.Takes e' [x] → Q (some x) e') : wp cut (onDevice Device.read) Q e := by
  have hhead : e.device.deliver.rx.head? = some x := Bench.head?_rx_deliver h
  rw [wp_onDevice, Bench.wp_read, hhead]
  refine hQ _ ⟨?_, rfl, ?_⟩
  · have hflow := e.device.flow_read.stream
    rwa [hhead] at hflow
  · rw [Bench.deliver_eq]

/-! ### Numbers -/

/-- **What is skipped takes no part in a number**, and a number begins with the byte that is found. -/
theorem wp_skipToNumber_takes :
    wp (¬ e.device.Passes timeout) (skipToNumber timeout) (fun r e' => ∃ c, e.Takes e' c ∧
      (∀ b ∈ c, Numeral.starts b = false) ∧
      ∀ x ∈ r, Numeral.starts x = true ∧ e'.device.rx.head? = some x) e := by
  unfold skipToNumber backlog
  rw [wp_bind, wp_bind, wp_get, wp_pure, Bench.backlog_eq_length_stream]
  -- each round but the last takes a byte of the stream
  refine wp_loop (I := fun n () e' => ∃ c, e.Takes e' c ∧ (∀ b ∈ c, Numeral.starts b = false) ∧
    e'.device.stream.length < n) ?_ ?_ _ _ _ ⟨[], .refl e, nofun, Nat.lt_succ_self _⟩
  · rintro _ _ ⟨c, -, -, hlt⟩
    exact absurd hlt (Nat.not_lt_zero _)
  · rintro n ⟨⟩ e₁ ⟨c, htakes, hidle, hlt⟩
    rw [wp_bind]
    refine wp_mono (wp_weaken wp_awaitPeek_takes fun h => mt htakes.passes h) ?_
    rintro r e₂ ⟨hpeek, hfront⟩
    cases r with
    | none => exact ⟨c, htakes.still hpeek, hidle, nofun⟩
    | some x =>
      have hx : e₂.device.rx.head? = some x := hfront x rfl
      dsimp only
      rw [wp_ite]
      split
      case isTrue hstarts =>
        refine ⟨c, htakes.still hpeek, hidle, ?_⟩
        rintro _ ⟨⟩
        exact ⟨decide_eq_true hstarts, hx⟩
      case isFalse hstarts =>
        rw [wp_bind]
        refine wp_read_takes hx fun e₃ h₃ => ?_
        have hshorter : e₃.device.stream.length + 1 = e₁.device.stream.length := by
          rw [hpeek.stream, h₃.stream]
          simp
        refine ⟨c ++ [x], (htakes.still hpeek).trans h₃, ?_, by omega⟩
        have hskipped : Numeral.starts x = false := decide_eq_false hstarts
        rw [List.forall_mem_append, List.forall_mem_singleton]
        exact ⟨hidle, hskipped⟩

/-- **A number takes the bytes that it is read from.** -/
theorem wp_readNumeral_takes (hx : e.device.rx.head? = some x) :
    wp (¬ e.device.Passes timeout) (readNumeral timeout x) (fun r e' => ∃ c, e.Takes e' c ∧
      (∀ b ∈ c.head?, b = x) ∧ ({} : Numeral).read c = (r, [])) e := by
  unfold readNumeral backlog
  rw [wp_bind, wp_bind, wp_get, wp_pure, Bench.backlog_eq_length_stream]
  -- the bytes taken so far have gone into the number, and the next one waits at the front
  refine wp_loop (I := fun n r e' => ∃ c, e.Takes e' c ∧ (c ++ [r.2]).head? = some x ∧
    e'.device.rx.head? = some r.2 ∧ (∀ w, ({} : Numeral).read (c ++ w) = r.1.read w) ∧
    e'.device.stream.length < n) ?_ ?_ _ _ _
    ⟨[], .refl e, rfl, hx, fun _ => rfl, Nat.lt_succ_of_lt (Nat.lt_succ_self _)⟩
  · rintro _ _ ⟨c, -, -, -, -, hlt⟩
    exact absurd hlt (Nat.not_lt_zero _)
  · rintro n ⟨m, y⟩ e₁ ⟨c, htakes, hhead, hfront, hread, hlt⟩
    have hc : ∀ b ∈ c.head?, b = x := by
      intro b hb
      rw [List.head?_append, hb] at hhead
      exact Option.some.inj hhead
    have hstop := hread []
    rw [List.append_nil, Numeral.read] at hstop
    cases hnext : m.next y with
    | overflow =>
      simp only [hnext]
      refine ⟨c, htakes, hc, ?_⟩
      rw [hstop, Numeral.result_eq_none_of_overflow hnext]
    | stop =>
      simp only [hnext]
      exact ⟨c, htakes, hc, hstop⟩
    | take m' =>
      simp only [hnext]
      rw [wp_bind]
      refine wp_read_takes hfront fun e₂ h₂ => ?_
      have htaken : ∀ w, ({} : Numeral).read ((c ++ [y]) ++ w) = m'.read w := by
        intro w
        rw [List.append_assoc, hread, List.singleton_append, Numeral.read, hnext]
      have hshorter : e₂.device.stream.length + 1 = e₁.device.stream.length := by
        rw [h₂.stream]
        simp
      rw [wp_bind]
      refine wp_mono (wp_weaken wp_awaitPeek_takes fun h => mt (htakes.trans h₂).passes h) ?_
      rintro r e₃ ⟨hpeek, hfront₃⟩
      have hboth := (htakes.trans h₂).still hpeek
      cases r with
      | none =>
        refine ⟨c ++ [y], hboth, ?_, ?_⟩
        · rintro b hb
          rw [hhead] at hb
          exact (Option.some.inj hb).symm
        · have hend := htaken []
          rwa [List.append_nil] at hend
      | some z =>
        refine ⟨c ++ [y], hboth, ?_, hfront₃ z rfl, htaken, ?_⟩
        · rw [List.head?_append, hhead]
          rfl
        · have hsame : e₂.device.stream = e₃.device.stream := hpeek.stream
          rw [← hsame]
          omega

/-- **A number is what its bytes say**, whether it ended with the byte behind it or with its timeout. -/
theorem wp_readInt_takes :
    wp (¬ e.device.Passes e.timeouts.field) readInt (fun r e' => ∃ c, e.Takes e' c ∧
      Numeral.parse c = (r, [])) e := by
  unfold readInt fieldTimeout
  rw [wp_bind, wp_bind, wp_get, wp_pure, wp_bind]
  refine wp_mono wp_skipToNumber_takes ?_
  rintro r e₁ ⟨skip, htakes, hidle, hfound⟩
  cases r with
  | none =>
    exact ⟨skip, htakes, Numeral.parse_of_idle hidle⟩
  | some x =>
    obtain ⟨hstarts, hx⟩ := hfound x rfl
    refine wp_mono (wp_weaken (wp_readNumeral_takes hx) fun h => mt htakes.passes h) ?_
    rintro r e₂ ⟨c, h₂, hhead, hread⟩
    refine ⟨skip ++ c, htakes.trans h₂, ?_⟩
    rw [Numeral.parse_append_of_idle hidle fun b hb => hhead b hb ▸ hstarts, hread]

/-- An engine whose module sends these bytes when it is asked for the first time. -/
def sayingBack (reply : Bytes) : Engine Bench := { device := { replies := [[(0, reply)]] } }

end Engine

end EspWifi
