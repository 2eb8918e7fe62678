import EspWifi.Proofs.Link.Twins
import EspWifi.Proofs.Session.Line

/-!
# Links that queue what they receive

A link that keeps what it receives in a queue does nothing else with it: what waits has no part in what
the clock shows, what is still to arrive and what is sent.

* `QueuedLink`: the contract of such a link; its `Alike` states are those that agree on all but what
  waits.
* `QueuedLink.twins`: states that agree on what waits as well are twins.
* `Bench.queuedLink`: **the bench keeps the contract**, however its bytes arrive and whatever its
  transmitter accepts.
-/

namespace EspWifi

open Run

variable {σ : Type}

/-- **A link with a queue of received bytes.** Looking at the queue and taking from it takes no time
and is not noticed by the other side; time and the transmitter do not depend on what waits, and what
arrives goes to the end of the queue. -/
structure QueuedLink (σ : Type) [Device σ] where
  /-- What waits to be read. -/
  waiting : σ → Bytes
  /-- What was sent so far. -/
  sent : σ → Bytes
  /-- What the clock shows at the next look. -/
  clock : σ → UInt32
  /-- The states agree on the clock, on what is to arrive and on the transmitter. -/
  Alike : σ → σ → Prop
  equivalence : Equivalence Alike
  sent_eq {d d' : σ} : Alike d d' → sent d = sent d'
  clock_eq {d d' : σ} : Alike d d' → clock d = clock d'
  available (d : σ) : wp False Device.available (fun n d' =>
    Alike d d' ∧ waiting d' = waiting d ∧ (n = 0 → waiting d = [])) d
  read (d : σ) : wp False Device.read (fun r d' =>
    Alike d d' ∧ r = (waiting d).head? ∧ waiting d' = (waiting d).tail) d
  takeErrors (d : σ) : wp False Device.takeErrors (fun _ d' =>
    Alike d d' ∧ waiting d' = waiting d) d
  record (level : Level) (message : String) (d : σ) : wp False (Device.record level message)
    (fun _ d' => Alike d d' ∧ waiting d' = waiting d) d
  millis {d d' : σ} : Alike d d' → both Device.millis Device.millis (fun t e t' e' =>
    t = clock d ∧ t' = t ∧ Alike e e' ∧
      ∃ new, waiting e = waiting d ++ new ∧ waiting e' = waiting d' ++ new) d d'
  write (bytes : Bytes) {d d' : σ} : Alike d d' → both (Device.write bytes) (Device.write bytes)
    (fun n e n' e' => sent e = sent d ++ bytes.take n ∧ n' = n ∧ Alike e e' ∧
      ∃ new, waiting e = waiting d ++ new ∧ waiting e' = waiting d' ++ new) d d'
  length_waiting_le (d : σ) : (waiting d).length ≤ Device.backlog d
  backlog {d d' : σ} : Alike d d' → waiting d = waiting d' → Device.backlog d' = Device.backlog d
  settling {d d' : σ} : Alike d d' → Device.settling d' = Device.settling d

namespace QueuedLink

variable [Device σ] (L : QueuedLink σ)

/-- States that agree on all, what waits included. -/
def Same (d d' : σ) : Prop := L.Alike d d' ∧ L.waiting d = L.waiting d'

/-- States that two steps lead to which are not noticed are as alike as those the steps began in. -/
theorem alike_of_steps {d d' e e' : σ} (h : L.Alike d d') (hd : L.Alike d e) (hd' : L.Alike d' e') :
    L.Alike e e' :=
  L.equivalence.trans (L.equivalence.symm hd) (L.equivalence.trans h hd')

/-- **States that agree on all are twins**, with clocks that show the same. -/
def twins : Twins σ where
  rel := L.Same
  lead := 0
  read := by
    intro d d' ⟨halike, hwaiting⟩
    refine both_of_wp (L.read d) (L.read d') ?_
    rintro r e r' e' ⟨hd, rfl, he⟩ ⟨hd', rfl, he'⟩
    exact ⟨by rw [hwaiting], L.alike_of_steps halike hd hd', by rw [he, he', hwaiting]⟩
  write bytes := by
    intro d d' ⟨halike, hwaiting⟩
    refine both_mono (L.write bytes halike) ?_
    rintro n e n' e' ⟨-, rfl, h, new, he, he'⟩
    exact ⟨rfl, h, by rw [he, he', hwaiting]⟩
  record level message := by
    intro d d' ⟨halike, hwaiting⟩
    refine both_of_wp (L.record level message d) (L.record level message d') ?_
    rintro _ e _ e' ⟨hd, he⟩ ⟨hd', he'⟩
    exact ⟨rfl, L.alike_of_steps halike hd hd', by rw [he, he', hwaiting]⟩
  millis := by
    intro d d' ⟨halike, hwaiting⟩
    refine both_mono (L.millis halike) ?_
    rintro t e t' e' ⟨-, rfl, h, new, he, he'⟩
    exact ⟨(UInt32.add_zero _).symm, h, by rw [he, he', hwaiting]⟩
  backlog h := L.backlog h.1 h.2
  settling h := L.settling h.1

end QueuedLink

namespace Schedule

variable {α : Type}

/-- **What is due later is what is due now and what then becomes due.** -/
theorem due_due (s : Schedule α) {now later : Nat} (h : now ≤ later) :
    s.due later = ((s.due now).1 ++ ((s.due now).2.due later).1, ((s.due now).2.due later).2) := by
  obtain ⟨entries⟩ := s
  unfold due
  induction entries with
  | nil => rfl
  | cons entry entries ih =>
    simp only [Prod.mk.injEq, mk.injEq] at ih ⊢
    by_cases hnow : entry.1 ≤ now
    · have hlater : entry.1 ≤ later := Nat.le_trans hnow h
      simp [hnow, hlater, ih]
    · simp [hnow]

/-- If nothing is due, everything remains. -/
theorem due_nothing {s : Schedule α} {now : Nat} (h : (s.due now).1 = []) : (s.due now).2 = s := by
  have hnone : s.entries.takeWhile (·.1 ≤ now) = [] := List.map_eq_nil_iff.1 h
  have hall : s.entries.takeWhile (·.1 ≤ now) ++ s.entries.dropWhile (·.1 ≤ now) = s.entries :=
    List.takeWhile_append_dropWhile
  rw [hnone, List.nil_append] at hall
  unfold due
  rw [hall]

/-- What remains is not due. -/
theorem due_rest (s : Schedule α) (now : Nat) : (s.due now).2.due now = ([], (s.due now).2) := by
  have h := s.due_due (Nat.le_refl now)
  have hfst := congrArg Prod.fst h
  have hsnd := congrArg Prod.snd h
  exact Prod.ext (List.append_cancel_left (hfst.symm.trans (List.append_nil _).symm)) hsnd.symm

theorem items_due (s : Schedule α) (now : Nat) : s.items = (s.due now).1 ++ (s.due now).2.items := by
  unfold items due
  rw [← List.map_append, List.takeWhile_append_dropWhile]

theorem foldl_max (entries : List (Nat × α)) (t : Nat) :
    entries.foldl (fun t entry => max t entry.1) t =
      max t (entries.foldl (fun t entry => max t entry.1) 0) := by
  induction entries generalizing t with
  | nil => exact (Nat.max_zero t).symm
  | cons entry entries ih =>
    rw [List.foldl_cons, List.foldl_cons, ih (max t _), ih (max 0 _)]
    omega

/-- What is due now does not count for how long there is still to wait. -/
theorem latest_due (s : Schedule α) (now : Nat) : (s.due now).2.latest - now = s.latest - now := by
  show (s.entries.dropWhile (·.1 ≤ now)).foldl (fun t entry => max t entry.1) 0 - now =
    s.entries.foldl (fun t entry => max t entry.1) 0 - now
  induction s.entries with
  | nil => rfl
  | cons entry entries ih =>
    by_cases hnow : entry.1 ≤ now
    · rw [List.dropWhile_cons_of_pos (by simpa using hnow), ih, List.foldl_cons,
        foldl_max entries (max 0 entry.1)]
      omega
    · rw [List.dropWhile_cons_of_neg (by simpa using hnow)]

end Schedule

namespace Bench

variable (b : Bench)

theorem deliver_eq : b.deliver = { b with
    rx := b.rx ++ (b.arrivals.due b.ticks).1.flatten
    arrivals := (b.arrivals.due b.ticks).2 } := by
  unfold deliver
  split
  next rest h =>
    have hrest : rest = b.arrivals := by
      have := Schedule.due_nothing (congrArg Prod.fst h)
      rwa [h] at this
    simp [h, hrest]
  next arrived rest _ h => rw [h]

/-- What waits to be read. -/
def queue : Bytes := b.deliver.rx

/-- The bench without what waits, and without what only the log takes notice of. -/
def outline : Bench := { b.deliver with rx := [], errors := .empty, records := [] }

theorem queue_eq : b.queue = b.rx ++ (b.arrivals.due b.ticks).1.flatten := by
  rw [queue, deliver_eq]

theorem outline_eq : b.outline = { b with
    rx := [], arrivals := (b.arrivals.due b.ticks).2, errors := .empty, records := [] } := by
  rw [outline, deliver_eq]

/-- All that has arrived is in the queue. -/
theorem deliver_deliver : b.deliver.deliver = b.deliver := by
  rw [deliver_eq b.deliver, deliver_eq b]
  simp [Schedule.due_rest]

theorem queue_deliver : b.deliver.queue = b.queue := by rw [queue, deliver_deliver, queue]

theorem outline_deliver : b.deliver.outline = b.outline := by rw [outline, deliver_deliver, outline]

theorem deliver_outline : b.outline.deliver = b.outline := by
  rw [deliver_eq b.outline, outline_eq]
  simp [Schedule.due_rest]

theorem queue_outline : b.outline.queue = [] := by
  rw [queue, deliver_outline]
  rfl

theorem outline_outline : b.outline.outline = b.outline := by
  rw [outline, deliver_outline]
  rfl

/-- **Time that passes brings what it brings to the outline.** -/
theorem tick_outline : b.outline.tick.1 = b.tick.1 ∧
    b.tick.2.queue = b.queue ++ b.outline.tick.2.queue ∧
      b.tick.2.outline = b.outline.tick.2.outline := by
  have hdue := b.arrivals.due_due (Nat.le_add_right b.ticks b.step)
  refine ⟨?_, ?_, ?_⟩
  · simp [tick, outline_eq]
  · simp [tick, queue_eq, outline_eq, hdue]
  · simp [tick, outline_eq, hdue]

/-- **A reply that is scheduled brings what it brings to the outline.** -/
theorem queue_schedule (chunks : Chunks) :
    (b.schedule chunks).queue = b.queue ++ (b.outline.schedule chunks).queue ∧
      (b.schedule chunks).outline = (b.outline.schedule chunks).outline := by
  unfold schedule
  rw [queue_deliver, queue_deliver, outline_deliver, outline_deliver, deliver_outline]
  constructor
  · simp [queue_eq, deliver_eq, outline_eq]
  · simp [deliver_eq, outline_eq]

/-- What is transmitted is noted beside the queue. -/
theorem outline_accept (limits : List Nat) (sent : Bytes) (replies : List Chunks) :
    ({ b with limits, sent, replies } : Bench).queue = b.queue ∧
      ({ b with limits, sent, replies } : Bench).outline =
        { b.outline with limits, sent, replies } := by
  constructor
  · rw [queue_eq, queue_eq]
  · rw [outline_eq, outline_eq]

/-- **What is transmitted is answered as the outline answers it.** -/
theorem transmit_outline (bytes : Bytes) :
    (b.outline.transmit bytes).1 = (b.transmit bytes).1 ∧
      (b.transmit bytes).2.queue = b.queue ++ (b.outline.transmit bytes).2.queue ∧
      (b.transmit bytes).2.outline = (b.outline.transmit bytes).2.outline := by
  have hacceptance : b.outline.acceptance bytes.length = b.acceptance bytes.length := by
    rw [outline_eq]
    rfl
  have hsent : b.outline.sent = b.sent := by rw [outline_eq]
  have hreplies : b.outline.replies = b.replies := by rw [outline_eq]
  unfold transmit
  rw [hacceptance]
  generalize b.acceptance bytes.length = a
  obtain ⟨n, limits⟩ := a
  simp only [hreplies, hsent]
  generalize b.sent ++ bytes.take n = sent
  have noted : ∀ replies, ({ b with limits, sent, replies } : Bench).queue =
        b.queue ++ ({ b.outline with limits, sent, replies } : Bench).queue ∧
      ({ b with limits, sent, replies } : Bench).outline =
        ({ b.outline with limits, sent, replies } : Bench).outline := by
    intro replies
    obtain ⟨hqueue, houtline⟩ := b.outline_accept limits sent replies
    obtain ⟨hqueue', houtline'⟩ := b.outline.outline_accept limits sent replies
    rw [hqueue, hqueue', houtline, houtline', queue_outline, outline_outline, List.append_nil]
    exact ⟨rfl, rfl⟩
  cases n with
  | zero => exact ⟨rfl, noted b.replies⟩
  | succ n =>
    cases hb : b.replies with
    | nil => exact ⟨rfl, noted []⟩
    | cons reply rest =>
      obtain ⟨hqueue, houtline⟩ := b.outline_accept limits sent rest
      have hscheduled := ({ b with limits, sent, replies := rest } : Bench).queue_schedule reply
      rw [hqueue, houtline] at hscheduled
      exact ⟨rfl, hscheduled⟩

theorem backlog_eq : b.backlog = b.queue.length + total b.outline.arrivals.items := by
  have happend : ∀ pieces pieces' : List Bytes,
      total (pieces ++ pieces') = pieces.flatten.length + total pieces' := by
    intro pieces pieces'
    induction pieces with
    | nil => simp
    | cons piece pieces ih =>
      rw [List.cons_append, total, ih, List.flatten_cons, List.length_append, Nat.add_assoc]
  rw [backlog, queue_eq, outline_eq, b.arrivals.items_due b.ticks, happend, List.length_append,
    Nat.add_assoc]

theorem settling_outline : b.outline.settling = b.settling := by
  rw [settling, settling, outline_eq]
  show _ - b.ticks + _ = _
  rw [Schedule.latest_due]

/-- What is taken from the queue is missing there only. -/
theorem replace_queue (w : Bytes) :
    ({ b.deliver with rx := w } : Bench).queue = w ∧
      ({ b.deliver with rx := w } : Bench).outline = b.outline := by
  constructor
  · simp [queue_eq, deliver_eq, Schedule.due_rest]
  · simp [outline_eq, deliver_eq, Schedule.due_rest]

/-- Only the log takes notice of errors and records. -/
theorem replace_noted (errors : ReceiveErrors) (records : List (Level × String)) :
    ({ b with errors, records } : Bench).queue = b.queue ∧
      ({ b with errors, records } : Bench).outline = b.outline := by
  constructor
  · rw [queue_eq, queue_eq]
  · rw [outline_eq, outline_eq]

/-- **The bench keeps the contract of a link with a queue.** -/
def queuedLink : QueuedLink Bench where
  waiting := queue
  sent := sent
  clock := now
  Alike b b' := b.outline = b'.outline
  equivalence := ⟨fun _ => rfl, Eq.symm, Eq.trans⟩
  sent_eq {b b'} h := by
    have hsent : b.outline.sent = b'.outline.sent := by rw [h]
    rwa [outline_eq, outline_eq] at hsent
  clock_eq {b b'} h := by
    have hnow : b.outline.now = b'.outline.now := by rw [h]
    rwa [outline_eq, outline_eq] at hnow
  available b := by
    refine ⟨b.outline_deliver.symm, b.queue_deliver, fun hnone => ?_⟩
    exact List.length_eq_zero_iff.1 (Nat.eq_zero_of_add_eq_zero_right hnone)
  read b := by
    obtain ⟨hqueue, houtline⟩ := b.replace_queue b.queue.tail
    exact ⟨houtline.symm, rfl, hqueue⟩
  takeErrors b := by
    show b.outline = (if b.bare then (ReceiveErrors.empty, b) else _).2.outline ∧
      (if b.bare then (ReceiveErrors.empty, b) else _).2.queue = b.queue
    obtain ⟨hqueue, houtline⟩ := b.replace_noted .empty b.records
    split
    · exact ⟨rfl, rfl⟩
    · exact ⟨houtline.symm, hqueue⟩
  record level message b := by
    show b.outline = Bench.outline (if b.verbosity.keeps level then _ else b) ∧
      Bench.queue (if b.verbosity.keeps level then _ else b) = b.queue
    obtain ⟨hqueue, houtline⟩ := b.replace_noted b.errors ((level, message) :: b.records)
    split
    · exact ⟨houtline.symm, hqueue⟩
    · exact ⟨rfl, rfl⟩
  millis {b b'} h := by
    obtain ⟨hnow, hqueue, houtline⟩ := b.tick_outline
    obtain ⟨hnow', hqueue', houtline'⟩ := b'.tick_outline
    rw [← h] at hnow' hqueue' houtline'
    exact ⟨rfl, hnow'.symm.trans hnow, houtline.trans houtline'.symm, _, hqueue, hqueue'⟩
  write bytes b b' h := by
    obtain ⟨hn, hqueue, houtline⟩ := b.transmit_outline bytes
    obtain ⟨hn', hqueue', houtline'⟩ := b'.transmit_outline bytes
    rw [← h] at hn' hqueue' houtline'
    exact ⟨(b.transmit_line bytes).2, hn'.symm.trans hn, houtline.trans houtline'.symm, _, hqueue,
      hqueue'⟩
  length_waiting_le b := by
    show b.queue.length ≤ b.backlog
    rw [backlog_eq]
    exact Nat.le_add_right _ _
  backlog {b b'} h hwaiting := by
    show b'.backlog = b.backlog
    rw [backlog_eq, backlog_eq, ← h, ← show b.queue = b'.queue from hwaiting]
  settling {b b'} h := by
    have hsettling : b.outline.settling = b'.outline.settling := by rw [h]
    rw [settling_outline, settling_outline] at hsettling
    exact hsettling.symm

end Bench

end EspWifi
