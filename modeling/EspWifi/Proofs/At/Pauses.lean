import EspWifi.Proofs.At.Spelling
import EspWifi.Proofs.Session.Timeline

/-!
# Pauses

A number is read byte by byte, and each byte is waited for anew. So reading gives up at the first pause
that is as long as the timeout, however long that takes, and what came before the pause is what is read.

* `beforePause`: the bytes that come before the first pause, each with the tick at which it is seen.
* `Engine.wp_awaitPeek_expects`: a look at the next byte, and how long it takes.
* `Supply.pausing`: bytes that arrive at any times are a supply.
* `Engine.readInt_pausing`: **what is read of them, and when it is.**
-/

namespace EspWifi

open Run

/-! ### Bytes before a pause -/

/-- The looks at the clock that a wait takes which ends with its timeout. -/
def patience (timeout : UInt32) : Nat := max 1 timeout.toNat

/-- **The bytes that come before the first pause of `p` ticks**, each with the tick at which it is seen. The
first wait begins at `t`, and each of the others when the byte before it is seen. -/
def beforePause (p : Nat) : Nat → List (Nat × UInt8) → List (Nat × UInt8)
  | _, [] => []
  | t, (due, x) :: tl =>
    if due ≤ t + p then (max (t + 1) due, x) :: beforePause p (max (t + 1) due) tl else []

/-- The tick at which the last of some bytes was seen, `t` if there are none. -/
def lastSeen (t : Nat) (seen : List (Nat × UInt8)) : Nat := seen.foldl (fun _ y => y.1) t

/-- The tick at which a reader is done that has taken the bytes `seen`: when it sees the first byte that it
leaves, or else when its wait for one is over. -/
def doneAt (p t : Nat) (seen : List (Nat × UInt8)) : List (Nat × UInt8) → Nat
  | [] => lastSeen t seen + p + 1
  | (seenAt, _) :: _ => seenAt

variable {p t due : Nat} {x : UInt8} {tl seen left : List (Nat × UInt8)}

theorem beforePause_front : (beforePause p t tl).map (·.2) <+: tl.map (·.2) := by
  induction tl generalizing t with
  | nil => exact List.prefix_refl _
  | cons y tl ih =>
    obtain ⟨due, x⟩ := y
    rw [beforePause]
    split
    · exact (List.prefix_cons_inj x).2 ih
    · exact List.nil_prefix

theorem lastSeen_concat (t : Nat) (seen : List (Nat × UInt8)) (y : Nat × UInt8) :
    lastSeen t (seen ++ [y]) = y.1 := by
  unfold lastSeen
  rw [List.foldl_append]
  rfl

/-- Each byte is seen at most `p` ticks after the one before it. -/
theorem lastSeen_le (hp : 0 < p) (h : seen <+: beforePause p t tl) :
    lastSeen t seen ≤ t + seen.length * p := by
  induction tl generalizing t seen with
  | nil =>
    obtain rfl := List.prefix_nil.1 h
    exact Nat.le_add_right _ _
  | cons y tl ih =>
    obtain ⟨due, x⟩ := y
    rw [beforePause] at h
    cases seen with
    | nil => exact Nat.le_add_right _ _
    | cons z seen =>
      split at h
      case isFalse => cases List.prefix_nil.1 h
      case isTrue hdue =>
        obtain ⟨rfl, hseen⟩ := List.cons_prefix_cons.1 h
        have hlast : lastSeen t ((max (t + 1) due, x) :: seen) = lastSeen (max (t + 1) due) seen := rfl
        have hle := ih hseen
        rw [hlast, List.length_cons, Nat.succ_mul]
        omega

/-- **A reader is done** `p` ticks for each byte after it began, and the length of the pause. -/
theorem doneAt_le (hp : 0 < p) (h : beforePause p t tl = seen ++ left) :
    doneAt p t seen left ≤ t + ((beforePause p t tl).length + 1) * p + 1 := by
  cases left with
  | nil =>
    have hle := lastSeen_le hp (h ▸ List.prefix_append seen [])
    rw [h, List.append_nil, Nat.succ_mul]
    show lastSeen t seen + p + 1 ≤ _
    omega
  | cons y left =>
    have hsplit : seen ++ y :: left = (seen ++ [y]) ++ left := by simp
    have hle := lastSeen_le hp (h ▸ hsplit ▸ List.prefix_append (seen ++ [y]) left)
    have hlen : (seen ++ [y]).length * p ≤ ((beforePause p t tl).length + 1) * p := by
      refine Nat.mul_le_mul_right p ?_
      have hall := congrArg List.length (h.trans hsplit)
      rw [List.length_append] at hall
      omega
    rw [lastSeen_concat] at hle
    show y.1 ≤ _
    omega

namespace Engine

variable {timeout : UInt32} {e : Engine Bench}

/-- **A look at the next byte** shows it when it is there, if it comes before the wait is over. -/
theorem wp_awaitPeek_expects (hstep : e.device.step = 1) (h : e.device.Expects tl) :
    wp False (awaitPeek timeout) (fun r e' => ∃ b, e' = { e with device := b } ∧ b.step = 1 ∧
      b.Expects tl ∧
      r = ((beforePause (patience timeout) e.device.ticks tl).head?).map (·.2) ∧
      b.ticks = doneAt (patience timeout) e.device.ticks []
        (beforePause (patience timeout) e.device.ticks tl)) e := by
  rw [awaitPeek_eq]
  have hticks {b : Bench} {k : Nat} (hafter : e.device.After b k) : b.ticks = e.device.ticks + k := by
    rw [hafter.ticks, hstep, Nat.mul_one]
  have hlook {k : Nat} (hle : k ≤ patience timeout) :
      timeout ≤ e.device.shows k - e.device.now ↔ timeout.toNat ≤ k := by
    rw [Bench.shows_sub_now, hstep, Nat.mul_one]
    exact Bench.timeout_le_iff hle
  -- the `k`-th try is at the `k`-th tick, and the first byte has not come with those before it
  refine wp_weaken (wp_await_of
    (I := fun k b => b.Expects tl ∧ 1 ≤ k ∧ k ≤ patience timeout ∧
      ∀ y ∈ tl.head?, k = 1 ∨ e.device.ticks + k ≤ y.1)
    (J := fun k b => b.Expects tl ∧ 1 ≤ k ∧ k ≤ patience timeout ∧
      ∀ y ∈ tl.head?, e.device.ticks + k < y.1)
    ⟨h.tick, Nat.le_refl 1, Nat.le_max_left _ _, fun _ _ => .inl rfl⟩ ?_ ?_ ?_)
    fun hnever => hnever (Bench.passes_of_step_one hstep timeout)
  · rintro k b ⟨hb, hpos, hle, hlate⟩ hafter
    rw [Bench.wp_peek, hb.rx_deliver, hticks hafter]
    refine ⟨(Bench.After.refl b).deliver, ?_⟩
    cases tl with
    | nil => exact ⟨hb.deliver, hpos, hle, nofun⟩
    | cons y tl =>
      obtain ⟨due, x⟩ := y
      by_cases hdue : due ≤ e.device.ticks + k
      case pos =>
        have hseen : max (e.device.ticks + 1) due = e.device.ticks + k := by
          have := hlate (due, x) rfl
          omega
        have htime : due ≤ e.device.ticks + patience timeout := by omega
        rw [List.takeWhile_cons_of_pos (by simpa using hdue), beforePause, if_pos htime]
        refine ⟨_, rfl, ?_, hb.deliver, rfl, ?_⟩
        · rw [Bench.deliver_eq]
          exact hafter.step.trans hstep
        · rw [Bench.deliver_eq]
          exact (hticks hafter).trans hseen.symm
      case neg =>
        rw [List.takeWhile_cons_of_neg (by simpa using hdue)]
        refine ⟨hb.deliver, hpos, hle, ?_⟩
        rintro _ ⟨⟩
        exact Nat.lt_of_not_le hdue
  · rintro k b ⟨hb, hpos, hle, hlate⟩ hafter hshown
    have hlast : k = patience timeout := by
      have := (hlook hle).1 hshown
      unfold patience at hle ⊢
      omega
    have hnothing : beforePause (patience timeout) e.device.ticks tl = [] := by
      cases tl with
      | nil => rfl
      | cons y tl =>
        obtain ⟨due, x⟩ := y
        have := hlate (due, x) rfl
        exact if_neg (by omega)
    rw [hnothing]
    refine ⟨_, rfl, hafter.step.trans hstep, hb.tick, rfl, ?_⟩
    rw [hafter.tick.ticks, hstep, Nat.mul_one, hlast]
    rfl
  · rintro k b ⟨hb, hpos, hle, hlate⟩ hafter hshown
    have hmore : k + 1 ≤ patience timeout := by
      have := mt (hlook hle).2 hshown
      unfold patience
      omega
    refine ⟨hb.tick, Nat.succ_pos k, hmore, fun y hy => .inr ?_⟩
    have := hlate y hy
    omega

end Engine

/-! ### Bytes that arrive at any times -/

namespace Bench

variable {b₀ b : Bench}

/-- The bytes that a reader of `b₀` finds before the first pause of `p` ticks. -/
def inTime (b₀ : Bench) (p : Nat) : List (Nat × UInt8) := beforePause p b₀.ticks b₀.timeline

/-- **A reader of `b₀` has taken `seen`**, and `left` comes before the first pause, too. -/
structure Read (b₀ : Bench) (p : Nat) (seen left : List (Nat × UInt8)) (b : Bench) : Prop where
  step : b.step = 1
  inTime : b₀.inTime p = seen ++ left
  stream : b₀.stream = seen.map (·.2) ++ b.stream

namespace Read

/-- What comes before the pause is the front of the stream. -/
theorem left_front (h : b₀.Read p seen left b) : left.map (·.2) <+: b.stream := by
  have hfront : (b₀.inTime p).map (·.2) <+: b₀.stream := by
    rw [b₀.expects_timeline.stream]
    exact beforePause_front
  rw [h.inTime, h.stream, List.map_append] at hfront
  exact (List.prefix_append_right_inj _).1 hfront

theorem length_le (h : b₀.Read p seen left b) : (left.map (·.2)).length ≤ Device.backlog b := by
  rw [backlog_eq_length_stream]
  exact h.left_front.length_le

end Read

end Bench

/-- **Bytes that arrive at any times are a supply** on a clock that counts the looks at it: those that come
before the first pause that is as long as the timeout. -/
def Supply.pausing (b₀ : Bench) (timeout : UInt32) : Supply Bench False timeout where
  due w b := ∃ seen left tl, b₀.Read (patience timeout) seen left b ∧ w = left.map (·.2) ∧
    b.Expects tl ∧ b.ticks = lastSeen b₀.ticks seen ∧
    left = beforePause (patience timeout) b.ticks tl
  shown w b := ∃ seen left tl, b₀.Read (patience timeout) seen left b ∧ w = left.map (·.2) ∧
    b.Expects tl ∧ b.ticks = doneAt (patience timeout) b₀.ticks seen left ∧
    ∀ y ∈ left.head?, ∃ due tl', tl = (due, y.2) :: tl' ∧ due ≤ y.1 ∧
      left.tail = beforePause (patience timeout) y.1 tl'
  length_le := by
    rintro w b (⟨seen, left, tl, h, rfl, -⟩ | ⟨seen, left, tl, h, rfl, -⟩)
    · exact h.length_le
    · exact h.length_le
  look := by
    rintro w e ⟨seen, left, tl, h, rfl, hexp, hticks, hleft⟩
    refine wp_mono (Engine.wp_awaitPeek_expects h.step hexp) ?_
    rintro _ _ ⟨b, rfl, hstep, hexp', rfl, hdone⟩
    rw [← hleft] at hdone ⊢
    refine ⟨b, rfl, by rw [List.head?_map], seen, left, tl, ⟨hstep, h.inTime, ?_⟩, rfl, hexp', ?_, ?_⟩
    · rw [hexp'.stream, ← hexp.stream]
      exact h.stream
    · cases left with
      | nil =>
        rw [hdone, hticks]
        rfl
      | cons y left => exact hdone
    · intro y hy
      cases tl with
      | nil =>
        rw [hleft] at hy
        cases hy
      | cons z tl =>
        obtain ⟨due, x⟩ := z
        rw [beforePause] at hleft
        split at hleft
        · rw [hleft] at hy ⊢
          cases hy
          exact ⟨due, tl, rfl, Nat.le_max_right _ _, rfl⟩
        · rw [hleft] at hy
          cases hy
  take := by
    rintro x w b ⟨seen, left, tl, h, hw, hexp, hticks, hhead⟩
    cases left with
    | nil => cases hw
    | cons y left =>
      obtain ⟨rfl, rfl⟩ := List.cons.inj hw
      obtain ⟨due, tl, rfl, hdue, hleft⟩ := hhead y rfl
      have hnow : b.ticks = y.1 := hticks
      have hread := hexp.read (hnow ▸ hdue)
      rw [Bench.wp_read]
      refine ⟨seen ++ [y], left, tl, ⟨?_, ?_, ?_⟩, rfl, hread, ?_, ?_⟩
      · rw [Bench.deliver_eq]
        exact h.step
      · rw [h.inTime, List.append_assoc, List.singleton_append]
      · rw [h.stream, hexp.stream, hread.stream, List.map_append, List.append_assoc]
        rfl
      · rw [lastSeen_concat, Bench.deliver_eq]
        exact hnow
      · rw [Bench.deliver_eq]
        exact hleft.trans (by rw [hnow])

namespace Engine

variable {e : Engine Bench}

/-- **What is read is the number in the bytes that come before the first pause**, and it is read when the
byte behind it is seen or the wait for one is over. -/
theorem readInt_pausing (hstep : e.device.step = 1) : ∃ e' seen left,
    readInt e =
      .ok (Numeral.parse ((e.device.inTime (patience e.timeouts.field)).map (·.2))).1 e' ∧
    e.device.Read (patience e.timeouts.field) seen left e'.device ∧
    left.map (·.2) = (Numeral.parse ((e.device.inTime (patience e.timeouts.field)).map (·.2))).2 ∧
    e'.device.ticks = doneAt (patience e.timeouts.field) e.device.ticks seen left := by
  have hdue : (Supply.pausing e.device e.timeouts.field).due
      ((e.device.inTime (patience e.timeouts.field)).map (·.2)) e.device :=
    ⟨[], _, _, ⟨hstep, rfl, rfl⟩, rfl, e.device.expects_timeline, rfl, rfl⟩
  obtain ⟨_, _, hrun, b, rfl, rfl, seen, left, -, hread, hleft, -, hticks, -⟩ :=
    wp_false_iff.1 ((Supply.pausing e.device e.timeouts.field).wp_readInt hdue)
  exact ⟨_, seen, left, hrun, hread, hleft.symm, hticks⟩

end Engine

end EspWifi
