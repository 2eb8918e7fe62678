import EspWifi.Proofs.Link.Ledger
import EspWifi.Proofs.Link.Queued
import EspWifi.Proofs.Lockstep

/-!
# A journal of the line

A bench knows which bytes wait and which were sent, but not in which order they came and went. A journal
stands between the bench and the program and writes that down. It changes nothing, so it tells what
happens in every run on the bench.

* `Passage`, `Journal`: what is written down, and the device that does it.
* `Journal.ledger`: **what arrives goes to the end of what waits**, and what is read is taken from the
  front of it.
* `Run.Same`, `Attempt.Same`: the journal changes nothing; `Journal.same_awaitTag`,
  `Journal.same_transmit`: the waits of the engine.
-/

namespace EspWifi

open Run

variable {α : Type}

/-! ### What passes -/

/-- What can happen to a byte on the line. -/
inductive Passage where
  /-- It has arrived, and waits. -/
  | arrived
  /-- The program has read it. -/
  | heard
  /-- The transmitter has accepted it. -/
  | sent
  deriving DecidableEq

/-- What happened on the line, in order. -/
abbrev Passages := List (Passage × UInt8)

namespace Passages

/-- The same happens to some bytes, one after the other. -/
def of (p : Passage) (c : Bytes) : Passages := c.map (p, ·)

/-- The bytes to which this has happened. -/
def only (p : Passage) (es : Passages) : Bytes := (es.filter (·.1 = p)).map (·.2)

variable {p p' : Passage} {c : Bytes} {es es' : Passages}

@[simp] theorem only_nil : only p [] = [] := rfl

@[simp] theorem only_cons {b : UInt8} :
    only p ((p', b) :: es) = if p' = p then b :: only p es else only p es := by
  by_cases h : p' = p <;> simp [only, h]

@[simp] theorem only_append : only p (es ++ es') = only p es ++ only p es' := by
  simp [only]

@[simp] theorem only_of : only p (of p c) = c := by
  simp [only, of, List.filter_map, Function.comp_def]

theorem only_of_ne (h : p' ≠ p) : only p (of p' c) = [] := by
  simp [only, of, List.filter_map, Function.comp_def, h]

/-- Where a byte stands among those to which the same has happened. -/
theorem exists_of_only {w w' : Bytes} {x : UInt8} (h : only p es = w ++ x :: w') :
    ∃ before after, es = before ++ (p, x) :: after ∧ only p before = w ∧ only p after = w' := by
  unfold only at h ⊢
  obtain ⟨l₁, l₂, hes, hw, hl₂⟩ := List.map_eq_append_iff.1 h
  obtain ⟨⟨q, _⟩, l₃, rfl, rfl, hw'⟩ := List.map_eq_cons_iff.1 hl₂
  obtain ⟨e₁, e₂, rfl, rfl, he₂⟩ := List.filter_eq_append_iff.1 hes
  obtain ⟨e₃, e₄, rfl, hnone, hq, rfl⟩ := List.filter_eq_cons_iff.1 he₂
  obtain rfl : q = p := by simpa using hq
  have hskip : e₃.filter (·.1 = q) = [] := List.filter_eq_nil_iff.2 hnone
  refine ⟨e₁ ++ e₃, e₄, by rw [List.append_assoc], ?_, hw'⟩
  rw [List.filter_append, hskip, List.append_nil]
  exact hw

/-- The longest beginning in which no more than `n` bytes are sent. -/
def within : Nat → Passages → Passages
  | _, [] => []
  | 0, (p, b) :: es => if p = .sent then [] else (p, b) :: within 0 es
  | n + 1, (p, b) :: es => (p, b) :: within (if p = .sent then n else n + 1) es

/-- **A beginning in which `n` bytes are sent reaches up to the byte that is sent next.** -/
theorem within_append (es es' : Passages) (n : Nat) :
    within ((only .sent es).length + n) (es ++ es') = es ++ within n es' := by
  induction es with
  | nil => simp
  | cons e es ih =>
    obtain ⟨p, b⟩ := e
    by_cases hp : p = .sent
    · have hsent : only .sent ((p, b) :: es) = b :: only .sent es := by rw [only_cons, if_pos hp]
      rw [hsent, List.length_cons, Nat.add_right_comm, List.cons_append, within, if_pos hp, ih]
      rfl
    · have hsent : only .sent ((p, b) :: es) = only .sent es := by rw [only_cons, if_neg hp]
      rw [hsent, List.cons_append, List.cons_append, ← ih]
      generalize (only .sent es).length + n = m
      cases m <;> simp [within, hp]

theorem within_sent (es es' : Passages) (b : UInt8) :
    within (only .sent es).length (es ++ (.sent, b) :: es') = es := by
  have h := within_append es ((.sent, b) :: es') 0
  rwa [within, if_pos rfl, List.append_nil] at h

end Passages

open Passages

/-! ### The journal -/

/-- A bench and the journal of its line. -/
structure Journal where
  bench : Bench
  entries : Passages := []

namespace Journal

/-- What has come to the queue between two states of a bench if `c` was taken from it. -/
def arrivals (b b' : Bench) (c : Bytes) : Bytes := (c ++ b'.queue).drop b.queue.length

/-- What happens during an operation: it sends `w` and reads `c`, and what has arrived meanwhile waits. -/
def during (b b' : Bench) (c w : Bytes) : Passages :=
  of .sent w ++ (of .heard c ++ of .arrived (arrivals b b' c))

/-- An operation of the bench, which reads and sends what can be told from its value. -/
def noting (m : Run Bench α) (heard sent : α → Bytes) : Run Journal α := do
  let before := (← get).bench
  let a ← Run.focus (·.bench) (fun b j => { j with bench := b }) m
  modify fun j => { j with entries := j.entries ++ during before j.bench (heard a) (sent a) }
  return a

/-- An operation of the bench that neither reads nor sends. -/
def watching (m : Run Bench α) : Run Journal α := noting m (fun _ => []) fun _ => []

instance : Device Journal where
  available := watching Device.available
  read := noting Device.read Option.toList fun _ => []
  peek := watching Device.peek
  write bytes := noting (Device.write bytes) (fun _ => []) bytes.take
  takeErrors := watching Device.takeErrors
  millis := watching Device.millis
  delay ms := watching (Device.delay ms)
  record level message := watching (Device.record level message)
  backlog j := Device.backlog j.bench
  settling j := Device.settling j.bench

/-- **What happened between two states of the journal.** What arrived went to the end of the queue, and
what was read was taken from its front. -/
structure Goes (j j' : Journal) (es : Passages) : Prop where
  entries : j'.entries = j.entries ++ es
  queue : j.bench.queue ++ only .arrived es = only .heard es ++ j'.bench.queue

theorem Goes.trans {j j' j'' : Journal} {es es' : Passages} (h : j.Goes j' es)
    (h' : j'.Goes j'' es') : j.Goes j'' (es ++ es') where
  entries := by rw [h'.entries, h.entries, List.append_assoc]
  queue := by
    rw [only_append, only_append, ← List.append_assoc, h.queue, List.append_assoc, h'.queue,
      List.append_assoc]

/-- An operation that takes `c` from the front of the queue, while something may come to its end. -/
theorem wp_noting {m : Run Bench α} {heard sent : α → Bytes} {j : Journal}
    (h : wp True m (fun a b => ∃ new, j.bench.queue ++ new = heard a ++ b.queue) j.bench) :
    wp True (noting m heard sent) (fun a j' => ∃ es, j.Goes j' es ∧ only .heard es = heard a ∧
      only .sent es = sent a) j := by
  unfold noting
  simp only [wp_bind, wp_get, wp_focus, wp_modify, wp_pure]
  refine wp_mono h ?_
  rintro a b ⟨new, hqueue⟩
  have harrived : only .arrived (during j.bench b (heard a) (sent a)) = new := by
    simp [during, only_of_ne, arrivals, ← hqueue]
  have hheard : only .heard (during j.bench b (heard a) (sent a)) = heard a := by
    simp [during, only_of_ne]
  refine ⟨_, ⟨rfl, ?_⟩, hheard, ?_⟩
  · rw [harrived, hheard]
    exact hqueue
  · simp [during, only_of_ne]

theorem wp_watching {m : Run Bench α} {j : Journal}
    (h : wp True m (fun _ b => ∃ new, b.queue = j.bench.queue ++ new) j.bench) :
    wp True (watching m) (fun _ j' => ∃ es, j.Goes j' es ∧ only .heard es = [] ∧
      only .sent es = []) j :=
  wp_noting (wp_mono h fun _ _ ⟨new, hqueue⟩ => ⟨new, hqueue.symm⟩)

end Journal

/-! ### What comes to the queue of a bench -/

namespace Bench

variable (b : Bench)

/-- **Time that passes brings what is due.** -/
theorem queue_later {ticks : Nat} (h : b.ticks ≤ ticks) :
    ∃ new, ({ b with ticks := ticks } : Bench).queue = b.queue ++ new := by
  have hdue := b.arrivals.due_due h
  refine ⟨((b.arrivals.due b.ticks).2.due ticks).1.flatten, ?_⟩
  rw [queue_eq, queue_eq, hdue]
  simp

end Bench

namespace Journal

/-- **The ledger of the journal.** -/
def ledger : Ledger Journal where
  moves j j' c w := ∃ es, j.Goes j' es ∧ only .heard es = c ∧ only .sent es = w
  refl j := ⟨[], ⟨(List.append_nil _).symm, List.append_nil _⟩, rfl, rfl⟩
  trans := by
    rintro j j' j'' c c' w w' ⟨es, h, rfl, rfl⟩ ⟨es', h', rfl, rfl⟩
    exact ⟨es ++ es', h.trans h', only_append, only_append⟩
  available j := wp_watching ⟨[], by rw [List.append_nil]; exact j.bench.queue_deliver⟩
  read j := by
    refine wp_noting ⟨[], ?_⟩
    obtain ⟨hqueue, -⟩ := j.bench.replace_queue j.bench.queue.tail
    show j.bench.queue ++ [] = j.bench.queue.head?.toList ++
      ({ j.bench.deliver with rx := j.bench.queue.tail } : Bench).queue
    rw [hqueue, List.append_nil]
    cases j.bench.queue <;> rfl
  peek j := wp_watching ⟨[], by rw [List.append_nil]; exact j.bench.queue_deliver⟩
  write j bytes := wp_noting ⟨_, (j.bench.transmit_outline bytes).2.1.symm⟩
  takeErrors j := by
    refine wp_watching ⟨[], ?_⟩
    rw [List.append_nil]
    show (if j.bench.bare then (ReceiveErrors.empty, j.bench) else _).2.queue = j.bench.queue
    split
    · rfl
    · exact (j.bench.replace_noted .empty j.bench.records).1
  millis j := wp_watching ⟨_, j.bench.tick_outline.2.1⟩
  delay j ms := wp_watching (Bench.wp_delay fun _ => j.bench.queue_later)
  record j level message := by
    refine wp_watching ⟨[], ?_⟩
    rw [List.append_nil]
    show Bench.queue (if j.bench.verbosity.keeps level then _ else j.bench) = j.bench.queue
    split
    · exact (j.bench.replace_noted j.bench.errors ((level, message) :: j.bench.records)).1
    · rfl

end Journal

/-! ### The journal changes nothing -/

/-- **A program does before a journal what it does without**: `bare` takes the journal away. -/
abbrev Run.Same {σ τ : Type} (bare : τ → σ) (m : Run σ α) (m' : Run τ α) : Prop :=
  Lockstep (fun s t => s = bare t) (fun s t => s = bare t) m m'

/-- The same for programs that may fail. -/
abbrev Attempt.Same {σ τ : Type} (bare : τ → σ) (x : Attempt σ α) (x' : Attempt τ α) : Prop :=
  Attempt.Lockstep (fun s t => s = bare t) (fun s t => s = bare t) x x'

/-- An engine without the journal. -/
def Engine.bare (e : Engine Journal) : Engine Bench where
  device := e.device.bench
  window := e.window
  timeouts := e.timeouts
  dropped := e.dropped

namespace Journal

theorem same_noting (m : Run Bench α) (heard sent : α → Bytes) :
    Same Journal.bench m (noting m heard sent) := by
  rintro _ j rfl
  unfold noting
  refine both_right ?_
  rw [wp_get]
  unfold both focus
  simp only [bind, EStateM.bind]
  cases m j.bench with
  | ok a b => exact ⟨rfl, rfl⟩
  | error f b => exact (rfl : f = f)

theorem same_watching (m : Run Bench α) : Same Journal.bench m (watching m) := same_noting m _ _

theorem same_onDevice {m : Run Bench α} {m' : Run Journal α} (h : Same Journal.bench m m') :
    Same Engine.bare (onDevice m) (onDevice m') := by
  rintro _ e rfl
  refine both_focus (both_mono (h _ _ rfl) ?_)
  rintro a b _ j ⟨rfl, rfl⟩
  exact ⟨rfl, rfl⟩

theorem same_record (level : Level) (message : String) :
    Same Engine.bare (MonadLog.record level message) (MonadLog.record level message) :=
  same_onDevice (same_watching _)

theorem same_elapsed (start : UInt32) : Same Engine.bare
    (onDevice (elapsed start)) (onDevice (elapsed start)) :=
  same_onDevice ((same_watching Device.millis).bind fun _ => .pure _)

theorem same_settling : Same Engine.bare Engine.settling Engine.settling :=
  .get_bind fun _ _ h => h ▸ .pure _

theorem same_backlog : Same Engine.bare Engine.backlog Engine.backlog :=
  .get_bind fun _ _ h => h ▸ .pure _

theorem same_awaitTag (timeout : UInt32) (tag : Option Bytes) (known : Bool) :
    Same Engine.bare (Engine.awaitTag timeout tag known) (Engine.awaitTag timeout tag known) := by
  have push (b : UInt8) : Same Engine.bare
      (modify fun e : Engine Bench => { e with window := e.window.push b })
      (modify fun e : Engine Journal => { e with window := e.window.push b }) :=
    .modify fun _ _ h => h ▸ rfl
  unfold Engine.awaitTag
  refine .bind (.modify fun _ _ h => h ▸ rfl) fun _ =>
    .bind (same_onDevice (same_watching _)) fun start => .bind same_settling fun _ =>
      .bind same_backlog fun _ => .loop (fun _ => ?_) _ _
  refine .bind (same_elapsed start) fun _ => .ite ?_ (.bind (same_record _ _) fun _ => .pure _)
  refine .bind (same_onDevice (same_noting _ _ _)) fun byte => ?_
  cases byte with
  | none => exact .pure _
  | some b =>
    refine .bind (same_record _ _) fun _ => .bind (push b) fun _ => .get_bind ?_
    rintro _ e rfl
    simp only [Engine.bare]
    cases Scan.verdict e.window tag known <;> exact .pure _

theorem same_skipPast (tag : Bytes) (timeout : UInt32) :
    Same Engine.bare (Engine.skipPast tag timeout) (Engine.skipPast tag timeout) :=
  .bind (same_awaitTag _ _ _) fun _ => .pure _

theorem same_transmit (bytes : Bytes) :
    Attempt.Same Engine.bare (Engine.transmit bytes) (Engine.transmit bytes) := by
  unfold Engine.transmit
  refine .mk (.bind (same_onDevice (same_watching _)) fun start => .get_bind ?_)
  rintro _ e rfl
  refine .bind same_settling fun _ => .loop (fun rest => .ite (.pure _) ?_) _ _
  refine .bind (same_onDevice (same_noting _ _ _)) fun n => ?_
  cases n with
  | zero => exact .bind (same_elapsed start) fun _ => .ite (.pure _) (.pure _)
  | succ n => exact .pure _

end Journal

end EspWifi
