import EspWifi.Proofs.Session.Clock
import EspWifi.Proofs.Session.Stream

/-!
# When bytes arrive

Bytes arrive at a bench in their order. So each byte of its stream has a tick from which on it is there,
and these ticks say all about what reads find, whenever they look.

* `Bench.timeline`: the bytes of the stream, each with the tick of its arrival.
* `Bench.Expects`: the bytes that a bench still hands out, and when; `Bench.expects_timeline`.
* `Bench.Expects.rx_deliver`, `Bench.Expects.read`: what a read finds, and what is expected after it.
-/

namespace EspWifi

open Run

/-- When the bytes of some pieces are there. No byte overtakes another one, and none comes before `t`. -/
def timelineFrom (t : Nat) : List (Nat × Bytes) → List (Nat × UInt8)
  | [] => []
  | (due, piece) :: entries => piece.map (max t due, ·) ++ timelineFrom (max t due) entries

variable {t : Nat} {entries : List (Nat × Bytes)}

theorem map_snd_timelineFrom (t : Nat) (entries : List (Nat × Bytes)) :
    (timelineFrom t entries).map (·.2) = (entries.map (·.2)).flatten := by
  induction entries generalizing t with
  | nil => rfl
  | cons entry entries ih =>
    obtain ⟨due, piece⟩ := entry
    rw [timelineFrom, List.map_append, ih, List.map_map, List.map_cons, List.flatten_cons]
    congr 1
    exact List.map_id piece

theorem le_of_mem_timelineFrom {y : Nat × UInt8} (h : y ∈ timelineFrom t entries) : t ≤ y.1 := by
  induction entries generalizing t with
  | nil => cases h
  | cons entry entries ih =>
    obtain ⟨due, piece⟩ := entry
    rcases List.mem_append.1 h with h | h
    · obtain ⟨x, -, rfl⟩ := List.mem_map.1 h
      exact Nat.le_max_left t due
    · exact Nat.le_trans (Nat.le_max_left t due) (ih h)

/-- What is not due comes with its tick or later. -/
theorem takeWhile_timelineFrom_cons {due now : Nat} {piece : Bytes} (h : now < due) :
    (timelineFrom t ((due, piece) :: entries)).takeWhile (·.1 ≤ now) = [] := by
  have hlate : ∀ y ∈ timelineFrom t ((due, piece) :: entries), now < y.1 := by
    intro y hy
    have hmax : due ≤ max t due := Nat.le_max_right t due
    rcases List.mem_append.1 hy with hy | hy
    · obtain ⟨x, -, rfl⟩ := List.mem_map.1 hy
      exact Nat.lt_of_lt_of_le h hmax
    · have := le_of_mem_timelineFrom hy
      omega
  cases hall : timelineFrom t ((due, piece) :: entries) with
  | nil => rfl
  | cons y ys =>
    have hy := hlate y (hall ▸ List.mem_cons_self)
    rw [List.takeWhile_cons_of_neg (by simpa using hy)]

/-- **By any tick those bytes are there whose tick has come.** -/
theorem due_eq_takeWhile {now : Nat} (h : t ≤ now) :
    ((Schedule.mk entries).due now).1.flatten =
      ((timelineFrom t entries).takeWhile (·.1 ≤ now)).map (·.2) := by
  unfold Schedule.due
  dsimp only
  induction entries generalizing t with
  | nil => rfl
  | cons entry entries ih =>
    obtain ⟨due, piece⟩ := entry
    rw [List.takeWhile_cons]
    split
    case isTrue hdue =>
      have hmax : max t due ≤ now := Nat.max_le.2 ⟨h, of_decide_eq_true hdue⟩
      have hall : ∀ y ∈ piece.map (max t due, ·), decide (y.1 ≤ now) = true := by
        intro y hy
        obtain ⟨x, -, rfl⟩ := List.mem_map.1 hy
        exact decide_eq_true hmax
      rw [timelineFrom, List.map_cons, List.flatten_cons, ih hmax,
        List.takeWhile_append_of_pos hall, List.map_append, List.map_map]
      congr 1
      exact (List.map_id piece).symm
    case isFalse hdue =>
      rw [takeWhile_timelineFrom_cons (Nat.lt_of_not_le (by simpa using hdue))]
      rfl

namespace Bench

variable {cut : Prop} {b : Bench} {x : UInt8} {due : Nat} {tl : List (Nat × UInt8)}

/-- **The bytes of the stream, each with the tick of its arrival.** What waits has arrived. -/
def timeline (b : Bench) : List (Nat × UInt8) :=
  b.rx.map (b.ticks, ·) ++ timelineFrom b.ticks b.arrivals.entries

/-- **A bench still hands out these bytes**, each from its tick on. -/
structure Expects (b : Bench) (tl : List (Nat × UInt8)) : Prop where
  stream : b.stream = tl.map (·.2)
  arrived {now : Nat} : b.ticks ≤ now →
    b.rx ++ (b.arrivals.due now).1.flatten = (tl.takeWhile (·.1 ≤ now)).map (·.2)

theorem expects_timeline (b : Bench) : b.Expects b.timeline where
  stream := by
    rw [timeline, List.map_append, map_snd_timelineFrom, List.map_map]
    exact congrArg (· ++ _) (List.map_id b.rx).symm
  arrived {now} h := by
    have hall : ∀ y ∈ b.rx.map (b.ticks, ·), decide (y.1 ≤ now) = true := by
      intro y hy
      obtain ⟨x, -, rfl⟩ := List.mem_map.1 hy
      exact decide_eq_true h
    rw [timeline, List.takeWhile_append_of_pos hall, List.map_append, List.map_map,
      ← due_eq_takeWhile h]
    exact congrArg (· ++ _) (List.map_id b.rx).symm

namespace Expects

/-- Time that passes changes nothing about what is expected. -/
theorem tick (h : b.Expects tl) : b.tick.2.Expects tl where
  stream := h.stream
  arrived hle := h.arrived (Nat.le_trans (Nat.le_add_right b.ticks b.step) hle)

theorem deliver (h : b.Expects tl) : b.deliver.Expects tl where
  stream := b.stream_deliver.trans h.stream
  arrived {now} hle := by
    rw [deliver_eq] at hle ⊢
    rw [← h.arrived hle, b.arrivals.due_due hle, List.flatten_append, List.append_assoc]

/-- A look finds the bytes whose tick has come. -/
theorem rx_deliver (h : b.Expects tl) :
    b.deliver.rx = (tl.takeWhile (·.1 ≤ b.ticks)).map (·.2) := by
  rw [deliver_eq]
  exact h.arrived (Nat.le_refl b.ticks)

/-- **A byte whose tick has come is read**, and those behind it are still expected. -/
theorem read (h : b.Expects ((due, x) :: tl)) (hdue : due ≤ b.ticks) :
    { b.deliver with rx := b.deliver.rx.tail }.Expects tl := by
  have hd := h.deliver
  have hrx : b.deliver.rx = x :: b.deliver.rx.tail := by
    have hfirst := h.rx_deliver
    rw [List.takeWhile_cons_of_pos (by simpa using hdue), List.map_cons] at hfirst
    rw [hfirst]
    rfl
  constructor
  · have hstream := hd.stream
    unfold Bench.stream at hstream ⊢
    rw [hrx, List.map_cons, List.cons_append] at hstream
    exact (List.cons.inj hstream).2
  · intro now hle
    have hticks : b.deliver.ticks = b.ticks := by rw [deliver_eq]
    have hdue' : due ≤ now := by
      have : b.ticks ≤ now := hticks ▸ hle
      omega
    have harrived := hd.arrived hle
    rw [hrx, List.takeWhile_cons_of_pos (by simpa using hdue'), List.map_cons,
      List.cons_append] at harrived
    exact (List.cons.inj harrived).2

end Expects

end Bench

end EspWifi
