import EspWifi.At.Integer
import EspWifi.Proofs.At.Reading
import EspWifi.Proofs.Text.Decimal

/-!
# Numbers that wait

Reading a number from a settled bench, and what is read where a number was written.

* `Numeral.parse`: the number at the front of some bytes, and the bytes after it.
* `Supply`: bytes that come in time; `Supply.wp_readInt`: **what is read of them is what `parse` says.**
* `Engine.wp_readInt`: the same for bytes that wait on a settled bench.
* `Numeral.read_digits`: a row of digits goes into the number.
-/

namespace EspWifi

open Run

namespace Numeral

/-- Bytes that can start a number. -/
def starts (b : UInt8) : Bool := b = ascii '-' ∨ isDigitByte b

/-- What a number becomes that goes on with these bytes, and what comes after it. -/
def read (n : Numeral) : Bytes → Option Int × Bytes
  | [] => (n.result, [])
  | b :: w =>
    match n.next b with
    | .take n => read n w
    | .stop => (n.result, b :: w)
    | .overflow => (none, b :: w)

/-- **The first number in some bytes, and what comes after it.** -/
def parse (w : Bytes) : Option Int × Bytes := read {} (w.dropWhile fun b => !starts b)

end Numeral

/-! ### Where the bytes of a number come from -/

/-- **Bytes that come in time**, one after the other, until one does not. They are `due` before a look at
the next byte. They are `shown` after a look that showed the first of them, and after one in vain if there
are none. -/
structure Supply (σ : Type) [Device σ] (cut : Prop) (timeout : UInt32) where
  due : Bytes → σ → Prop
  shown : Bytes → σ → Prop
  length_le {w : Bytes} {d : σ} : due w d ∨ shown w d → w.length ≤ Device.backlog d
  look {w : Bytes} {e : Engine σ} : due w e.device → wp cut (Engine.awaitPeek timeout)
    (fun r e' => ∃ d, e' = { e with device := d } ∧ r = w.head? ∧ shown w d) e
  take {x : UInt8} {w : Bytes} {d : σ} : shown (x :: w) d → wp cut Device.read (fun _ => due w) d

namespace Supply

variable {σ : Type} [Device σ] {cut : Prop} {timeout : UInt32} {w : Bytes} {e : Engine σ}
  (S : Supply σ cut timeout)

/-- What comes before a number is skipped. -/
theorem wp_skipToNumber (h : S.due w e.device) :
    wp cut (Engine.skipToNumber timeout) (fun r e' => ∃ d, e' = { e with device := d } ∧
      r = (w.dropWhile fun b => !Numeral.starts b).head? ∧
      S.shown (w.dropWhile fun b => !Numeral.starts b) d) e := by
  unfold Engine.skipToNumber Engine.backlog
  rw [wp_bind, wp_bind, wp_get, wp_pure]
  -- what is skipped is no part of a number
  refine wp_loop (I := fun n () e' => ∃ d w', e' = { e with device := d } ∧ S.due w' d ∧
    (w'.dropWhile fun b => !Numeral.starts b) = (w.dropWhile fun b => !Numeral.starts b) ∧
    w'.length < n) ?_ ?_ _ _ _
    ⟨e.device, w, rfl, h, rfl, Nat.lt_succ_of_le (S.length_le (.inl h))⟩
  · rintro _ _ ⟨d, w', -, -, -, hlt⟩
    exact absurd hlt (Nat.not_lt_zero _)
  · rintro n ⟨⟩ _ ⟨d, w', rfl, hd, hw', hlt⟩
    rw [wp_bind]
    refine wp_mono (S.look hd) ?_
    rintro _ _ ⟨d₁, rfl, rfl, h₁⟩
    rw [← hw']
    cases w' with
    | nil => exact ⟨d₁, rfl, rfl, h₁⟩
    | cons x w' =>
      simp only [List.head?_cons]
      rw [wp_ite]
      split
      · rename_i hx
        have hs : Numeral.starts x = true := decide_eq_true hx
        rw [List.dropWhile_cons_of_neg (by simp [hs])]
        exact ⟨d₁, rfl, rfl, h₁⟩
      · rename_i hx
        have hs : Numeral.starts x = false := decide_eq_false hx
        rw [wp_bind, wp_onDevice]
        refine wp_mono (S.take h₁) fun _ d₂ h₂ => ?_
        refine ⟨d₂, w', rfl, h₂, ?_, by simpa using hlt⟩
        rw [List.dropWhile_cons_of_pos (by simp [hs])]

/-- A number is made of the bytes that come after the first one. -/
theorem wp_readNumeral {x : UInt8} (h : S.shown (x :: w) e.device) :
    wp cut (Engine.readNumeral timeout x) (fun r e' => ∃ d, e' = { e with device := d } ∧
      r = (({} : Numeral).read (x :: w)).1 ∧ S.shown (({} : Numeral).read (x :: w)).2 d) e := by
  unfold Engine.readNumeral Engine.backlog
  rw [wp_bind, wp_bind, wp_get, wp_pure]
  -- the bytes taken so far have gone into the number
  refine wp_loop (I := fun n r e' => ∃ d w', e' = { e with device := d } ∧ S.shown (r.2 :: w') d ∧
    r.1.read (r.2 :: w') = ({} : Numeral).read (x :: w) ∧ w'.length + 1 < n)
    ?_ ?_ _ _ _ ⟨e.device, w, rfl, h, rfl, ?_⟩
  · rintro _ _ ⟨d, w', -, -, -, hlt⟩
    exact absurd hlt (Nat.not_lt_zero _)
  · rintro n ⟨m, c⟩ _ ⟨d, w', rfl, hd, hread, hlt⟩
    rw [Numeral.read] at hread
    cases hnext : m.next c with
    | overflow =>
      simp only [hnext] at hread ⊢
      refine ⟨d, rfl, ?_⟩
      rw [← hread]
      exact ⟨rfl, hd⟩
    | stop =>
      simp only [hnext] at hread ⊢
      refine ⟨d, rfl, ?_⟩
      rw [← hread]
      exact ⟨rfl, hd⟩
    | take m' =>
      simp only [hnext] at hread ⊢
      rw [wp_bind, wp_onDevice]
      refine wp_mono (S.take hd) fun _ d₁ h₁ => ?_
      rw [wp_bind]
      refine wp_mono (S.look h₁) ?_
      rintro _ _ ⟨d₂, rfl, rfl, h₂⟩
      cases w' with
      | nil =>
        refine ⟨d₂, rfl, ?_⟩
        rw [← hread]
        exact ⟨rfl, h₂⟩
      | cons y w' => exact ⟨d₂, w', rfl, h₂, hread, by simpa using hlt⟩
  · have hle := S.length_le (.inr h)
    rw [List.length_cons] at hle
    omega

/-- **A number is read from the bytes that come in time**, and what comes after it is left. -/
theorem wp_readInt (S : Supply σ cut e.timeouts.field) (h : S.due w e.device) :
    wp cut Engine.readInt (fun r e' => ∃ d, e' = { e with device := d } ∧
      r = (Numeral.parse w).1 ∧ S.shown (Numeral.parse w).2 d) e := by
  unfold Engine.readInt Engine.fieldTimeout Numeral.parse
  rw [wp_bind, wp_bind, wp_get, wp_pure, wp_bind]
  refine wp_mono (S.wp_skipToNumber h) ?_
  rintro _ _ ⟨d, rfl, rfl, hd⟩
  cases hw : (w.dropWhile fun b => !Numeral.starts b) with
  | nil =>
    rw [hw] at hd
    exact ⟨d, rfl, rfl, hd⟩
  | cons x w' =>
    rw [hw] at hd
    exact S.wp_readNumeral (e := { e with device := d }) hd

/-- Bytes that wait are a supply on every clock that passes the timeout. -/
def waiting (b₀ : Bench) (timeout : UInt32) : Supply Bench (¬ b₀.Passes timeout) timeout where
  due w b := b.Waits w ∧ b.step = b₀.step
  shown w b := b.Waits w ∧ b.step = b₀.step
  length_le h := by
    obtain ⟨h, -⟩ := or_self_iff.1 h
    exact Nat.le_of_eq h.backlog.symm
  look := by
    rintro w e ⟨h, hstep⟩
    refine wp_weaken (Engine.wp_awaitPeek_waits h fun b hb hsame => ?_) fun hnever hpasses => ?_
    · exact ⟨b, rfl, rfl, hb, hsame.trans hstep⟩
    · exact hnever (hpasses.of_step hstep)
  take := by
    rintro x w b ⟨h, hstep⟩
    refine h.read (.refl b) fun b' hb' hafter => ?_
    exact ⟨hb', hafter.step.trans hstep⟩

end Supply

namespace Engine

variable {cut : Prop} {w : Bytes} {e : Engine Bench}

/-- **Reading a number takes the number that waits**, with what comes before it. -/
theorem wp_readInt_waits {Q : Option Int → Engine Bench → Prop} (h : e.device.Waits w)
    (hQ : ∀ b : Bench, b.Waits (Numeral.parse w).2 → b.step = e.device.step →
      Q (Numeral.parse w).1 { e with device := b }) :
    wp (¬ e.device.Passes e.timeouts.field) readInt Q e := by
  refine wp_mono ((Supply.waiting e.device e.timeouts.field).wp_readInt ⟨h, rfl⟩) ?_
  rintro _ _ ⟨b, rfl, rfl, hb, hstep⟩
  exact hQ b hb hstep

/-- The same on a settled bench. -/
theorem wp_readInt {Q : Option Int → Engine Bench → Prop} (h : e.device.Holds w)
    (hQ : ∀ b : Bench, b.Holds (Numeral.parse w).2 →
      Q (Numeral.parse w).1 { e with device := b }) :
    wp cut readInt Q e := by
  refine wp_settled h (wp_readInt_waits h.waits fun b hb hstep => ?_)
  exact hQ b (hb.holds (hstep.trans h.step))

end Engine

namespace Numeral

theorem next_digit {n : Numeral} {c : Char} (hc : c.isDigit = true) {v : Nat}
    (hv : v = 10 * n.value + (c.toNat - 48)) (hle : v ≤ accumulatorLimit) :
    n.next (ascii c) = .take { n with value := v, digits := n.digits + 1 } := by
  have hminus : ascii c ≠ ascii '-' := by
    intro heq
    have := isDigitByte_ascii hc
    rw [heq] at this
    exact absurd this (by decide)
  have hval : n.value * 10 + (ascii c - ascii '0').toNat = v := by
    rw [digitValue_ascii hc]
    omega
  unfold next
  rw [if_neg (fun h => hminus h.1), if_pos (isDigitByte_ascii hc)]
  simp only [hval]
  rw [if_pos hle]

theorem next_stop {n : Numeral} {b : UInt8} (hd : 0 < n.digits) (hb : isDigitByte b = false) :
    n.next b = .stop := by
  unfold next
  rw [if_neg (fun h => by omega), hb]
  rfl

theorem le_ofDigitChars (cs : List Char) (v : Nat) : v ≤ Nat.ofDigitChars 10 cs v := by
  rw [Nat.ofDigitChars_eq_ofDigitChars_zero]
  have : 1 * v ≤ 10 ^ cs.length * v := Nat.mul_le_mul_right v (Nat.one_le_pow _ _ (by decide))
  omega

/-- A row of digits goes into the number that is being read. -/
theorem read_digits {cs : List Char} (hcs : ∀ c ∈ cs, c.isDigit = true) {n : Numeral}
    (hle : Nat.ofDigitChars 10 cs n.value ≤ accumulatorLimit) (rest : Bytes) :
    n.read (cs.map ascii ++ rest) =
      { n with value := Nat.ofDigitChars 10 cs n.value, digits := n.digits + cs.length }.read
        rest := by
  induction cs generalizing n with
  | nil => simp
  | cons c cs ih =>
    have hc := hcs c List.mem_cons_self
    rw [Nat.ofDigitChars_cons] at hle
    have hv := (le_ofDigitChars cs _).trans hle
    have h0 : '0'.toNat = 48 := rfl
    rw [List.map_cons, List.cons_append, read, next_digit hc (by rw [h0]) hv]
    refine (ih (fun c hmem => hcs c (List.mem_cons_of_mem _ hmem)) hle).trans ?_
    rw [Nat.ofDigitChars_cons, List.length_cons, Nat.add_assoc, Nat.add_comm 1]

end Numeral

end EspWifi
