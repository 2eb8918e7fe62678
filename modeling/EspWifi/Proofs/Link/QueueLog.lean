import EspWifi.Link.ByteQueue
import Mathlib.Data.List.DropRight

/-!
# The log of a byte queue

The interrupt and the foreground use a queue in any order. A log says which calls were made and what they
returned; it is all that is needed to tell what is queued and which errors are latched.

* `ByteQueue.perform`, `ByteQueue.trace`: a call and what it returns, and the log of a row of calls.
* `ByteQueue.bytes_perform`, `ByteQueue.errors_perform`: what one call does to the bytes and to the errors.
* `ByteQueue.trace_accounts`: **the bytes and the errors of a queue**, after any calls.
-/

namespace EspWifi

namespace ByteQueue

variable {n : Nat}

/-- A call on a queue. -/
inductive Call where
  | push (b : UInt8)
  | pop
  | peek
  | flag (errors : ReceiveErrors)
  | takeErrors
  | clear

/-- A call with what it returned. -/
inductive Event where
  | pushed (b : UInt8) (accepted : Bool)
  | popped (byte : Option UInt8)
  | peeked (byte : Option UInt8)
  | flagged (errors : ReceiveErrors)
  | took (errors : ReceiveErrors)
  | cleared

namespace Event

/-- The byte that went into the queue. -/
def accepted : Event → Bytes
  | pushed b true => [b]
  | _ => []

/-- The byte that came out of it. -/
def returned : Event → Bytes
  | popped byte => byte.toList
  | _ => []

/-- A push that found no room. -/
def isRefusal : Event → Bool
  | pushed _ accepted => !accepted
  | _ => false

/-- The errors that were flagged. -/
def errors : Event → ReceiveErrors
  | flagged errors => errors
  | _ => .empty

/-- The queue is empty after it. -/
def clears : Event → Bool
  | cleared => true
  | _ => false

/-- No error is latched after it. -/
def settles : Event → Bool
  | took _ | cleared => true
  | _ => false

end Event

/-! ### What a log says -/

/-- What happened since the queue was last cleared. -/
def sinceClear (log : List Event) : List Event := log.rtakeWhile fun event => !event.clears

/-- What happened since the errors were last taken or cleared. -/
def sinceSettled (log : List Event) : List Event := log.rtakeWhile fun event => !event.settles

/-- The bytes that went in, in order. -/
def acceptedBytes (log : List Event) : Bytes := log.flatMap Event.accepted

/-- The bytes that came out, in order. -/
def poppedBytes (log : List Event) : Bytes := log.flatMap Event.returned

/-- The errors that were flagged, all together. -/
def flaggedErrors (log : List Event) : ReceiveErrors :=
  log.foldl (fun errors event => errors ∪ event.errors) .empty

/-- A push found no room. -/
def refused (log : List Event) : Bool := log.any Event.isRefusal

/-- **The errors there are to latch**: those that were flagged, and an overrun if a push found no room. -/
def latchable (log : List Event) : ReceiveErrors := flaggedErrors log ∪ { overrun := refused log }

theorem latchable_concat (log : List Event) (event : Event) :
    latchable (log ++ [event]) =
      latchable log ∪ (event.errors ∪ { overrun := event.isRefusal }) := by
  have hflagged : flaggedErrors (log ++ [event]) = flaggedErrors log ∪ event.errors := by
    unfold flaggedErrors
    rw [List.foldl_append, List.foldl_cons, List.foldl_nil]
  have hrefused : refused (log ++ [event]) = (refused log || event.isRefusal) := by
    simp [refused]
  unfold latchable
  rw [hflagged, hrefused]
  show ReceiveErrors.union (.union _ _) _ = ReceiveErrors.union (.union _ _) (.union _ _)
  simp only [ReceiveErrors.union, Bool.or_false, ReceiveErrors.mk.injEq, true_and]
  ac_rfl

/-! ### Single calls -/

/-- A call, and what it returns. -/
def perform (q : ByteQueue n) : Call → Event × ByteQueue n
  | .push b => (.pushed b (q.push b).1, (q.push b).2)
  | .pop => (.popped q.pop.1, q.pop.2)
  | .peek => (.peeked q.peek, q)
  | .flag errors => (.flagged errors, q.flag errors)
  | .takeErrors => (.took q.takeErrors.1, q.takeErrors.2)
  | .clear => (.cleared, q.clear)

/-- **A push is refused exactly if the queue is full**, and then it leaves the bytes as they are. -/
theorem push_eq_false_iff (q : ByteQueue n) (b : UInt8) : (q.push b).1 = false ↔ q.length = n := by
  have hle : q.bytes.length ≤ n := q.length_le
  rw [push_fst, decide_eq_false_iff_not]
  unfold length
  omega

theorem bytes_push_of_refused {q : ByteQueue n} {b : UInt8} (h : (q.push b).1 = false) :
    (q.push b).2.bytes = q.bytes := by
  rw [push_fst, decide_eq_false_iff_not] at h
  rw [bytes_push, if_neg h]

/-- **What comes out and what is still queued is what was queued, and what goes in.** -/
theorem bytes_perform (q : ByteQueue n) (call : Call) (h : (q.perform call).1.clears = false) :
    (q.perform call).1.returned ++ (q.perform call).2.bytes =
      q.bytes ++ (q.perform call).1.accepted := by
  cases call with
  | push b =>
    show (q.push b).2.bytes = q.bytes ++ (Event.pushed b (q.push b).1).accepted
    rw [bytes_push, push_fst]
    by_cases hroom : q.bytes.length < n
    · rw [if_pos hroom, decide_eq_true hroom]
      rfl
    · rw [if_neg hroom, decide_eq_false hroom]
      exact (List.append_nil _).symm
  | pop =>
    have hpop := q.bytes_pop
    show q.pop.1.toList ++ q.pop.2.bytes = q.bytes ++ []
    rw [hpop, List.append_nil]
  | peek => exact (List.append_nil _).symm
  | flag errors => exact (List.append_nil _).symm
  | takeErrors => exact (List.append_nil _).symm
  | clear => cases h

/-- **Errors gather until they are taken or cleared.** -/
theorem errors_perform (q : ByteQueue n) (call : Call) (h : (q.perform call).1.settles = false) :
    (q.perform call).2.errors = q.errors ∪
      ((q.perform call).1.errors ∪ { overrun := (q.perform call).1.isRefusal }) := by
  have hnothing : q.errors = q.errors ∪ (.empty ∪ .empty) := by
    rw [ReceiveErrors.union_empty, ReceiveErrors.union_empty]
  cases call with
  | push b =>
    show (q.push b).2.errors = q.errors ∪ (.empty ∪ { overrun := !(q.push b).1 })
    rw [errors_push, push_fst]
    by_cases hroom : q.bytes.length < n
    · rw [if_pos hroom, decide_eq_true hroom]
      exact hnothing
    · rw [if_neg hroom, decide_eq_false hroom, ReceiveErrors.empty_union]
      rfl
  | pop => exact hnothing
  | peek => exact hnothing
  | flag errors =>
    show q.errors ∪ errors = q.errors ∪ (errors ∪ .empty)
    rw [ReceiveErrors.union_empty]
  | takeErrors => cases h
  | clear => cases h

theorem bytes_of_clears {q : ByteQueue n} {call : Call} (h : (q.perform call).1.clears = true) :
    (q.perform call).2.bytes = [] := by
  cases call with
  | clear => rfl
  | _ => cases h

theorem errors_of_settles {q : ByteQueue n} {call : Call} (h : (q.perform call).1.settles = true) :
    (q.perform call).2.errors = .empty := by
  cases call with
  | takeErrors => rfl
  | clear => rfl
  | _ => cases h

/-! ### Rows of calls -/

/-- The log of a row of calls on a new queue, and the queue after them. -/
def trace (n : Nat) (calls : List Call) : List Event × ByteQueue n :=
  calls.foldl (fun r call => (r.1 ++ [(r.2.perform call).1], (r.2.perform call).2)) ([], empty)

theorem trace_concat (calls : List Call) (call : Call) :
    trace n (calls ++ [call]) =
      ((trace n calls).1 ++ [((trace n calls).2.perform call).1],
        ((trace n calls).2.perform call).2) := by
  unfold trace
  rw [List.foldl_append, List.foldl_cons, List.foldl_nil]

/-- **Nothing that went in is lost, duplicated or reordered** until the queue is cleared. -/
theorem bytes_trace (n : Nat) (calls : List Call) :
    poppedBytes (sinceClear (trace n calls).1) ++ (trace n calls).2.bytes =
      acceptedBytes (sinceClear (trace n calls).1) := by
  induction calls using List.reverseRecOn with
  | nil => rfl
  | append_singleton calls call ih =>
    rw [trace_concat]
    dsimp only
    unfold sinceClear at ih ⊢
    rw [List.rtakeWhile_concat]
    cases hclears : ((trace n calls).2.perform call).1.clears with
    | true =>
      rw [bytes_of_clears hclears]
      rfl
    | false =>
      have hstep := bytes_perform _ call hclears
      rw [if_pos (by simp)]
      unfold poppedBytes acceptedBytes at ih ⊢
      rw [List.flatMap_append, List.flatMap_append, List.flatMap_singleton, List.flatMap_singleton,
        List.append_assoc, hstep, ← List.append_assoc, ih]

/-- **The latched errors are those there were to latch** since they were taken or cleared. -/
theorem errors_trace (n : Nat) (calls : List Call) :
    (trace n calls).2.errors = latchable (sinceSettled (trace n calls).1) := by
  induction calls using List.reverseRecOn with
  | nil => rfl
  | append_singleton calls call ih =>
    rw [trace_concat]
    dsimp only
    unfold sinceSettled at ih ⊢
    rw [List.rtakeWhile_concat]
    cases hsettles : ((trace n calls).2.perform call).1.settles with
    | true =>
      rw [errors_of_settles hsettles]
      rfl
    | false =>
      rw [if_pos (by simp), latchable_concat, errors_perform _ call hsettles, ih]

/-- **A queue keeps account of its bytes and its errors**, whatever calls are made on it and in which order.
The bytes that came out since it was last cleared and those that are queued are the bytes that went in
since then, in order. A push is refused exactly if `n` bytes are queued, which are never more, and it then
leaves them as they are. The latched errors are those that were flagged since they were last taken or
cleared, with an overrun if a push was refused since then. -/
theorem trace_accounts (n : Nat) (calls : List Call) :
    let log := (trace n calls).1
    let q := (trace n calls).2
    poppedBytes (sinceClear log) ++ q.bytes = acceptedBytes (sinceClear log) ∧
      (∀ b, ((q.push b).1 = false ↔ q.length = n) ∧
        ((q.push b).1 = false → (q.push b).2.bytes = q.bytes)) ∧
      q.length ≤ n ∧
      q.errors = flaggedErrors (sinceSettled log) ∪ { overrun := refused (sinceSettled log) } := by
  intro log q
  refine ⟨bytes_trace n calls, fun b => ?_, q.length_le, errors_trace n calls⟩
  exact ⟨push_eq_false_iff q b, fun h => bytes_push_of_refused h⟩

end ByteQueue

end EspWifi
