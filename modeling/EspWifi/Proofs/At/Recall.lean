import EspWifi.Proofs.At.Scan
import EspWifi.Proofs.Text.LineEnds
import Mathlib.Data.List.DropRight

/-!
# What a window recalls

A window is pushed to and reset in any order. All its answers are about the bytes that were pushed since
the last reset, and it has forgotten all but the last of them.

* `Window.bytes_push`, `Window.endsWith_eq_all`: a push and a test, as a bounded queue carries them out.
* `Window.pushed`: the bytes pushed since the last reset; `Window.run_eq_last`: they alone tell the state.
* `Window.extract_eq_ok_iff`, `Window.extract_eq_error_iff`: when there is a text to cut out.
* `Window.run_recalls`: **what a window answers** after any steps.
-/

namespace EspWifi

/-- Bytes are read as the text whose UTF-8 they are. -/
theorem text?_eq_some_iff {b : Bytes} {s : String} : text? b = some s ↔ utf8 s = b := by
  constructor
  · intro h
    unfold text? String.fromUTF8? at h
    by_cases hvalid : ByteArray.IsValidUTF8 ⟨b.toArray⟩
    · rw [dif_pos hvalid] at h
      obtain rfl := Option.some.inj h
      exact List.toList_toArray
    · rw [dif_neg hvalid] at h
      cases h
  · intro h
    rw [← h]
    exact text?_utf8 s

theorem text?_eq_none_iff {b : Bytes} : text? b = none ↔ ∀ s, utf8 s ≠ b := by
  rw [Option.eq_none_iff_forall_ne_some]
  exact forall_congr' fun s => not_congr text?_eq_some_iff

namespace Window

variable {n : Nat}

/-! ### Single operations -/

/-- **A full window evicts its oldest byte**, and one that is not full keeps all of them. -/
theorem bytes_push (w : Window n) (b : UInt8) (hn : 0 < n) :
    (w.push b).bytes = (if w.length = n then w.bytes.tail else w.bytes) ++ [b] := by
  have hle : w.bytes.length ≤ n := w.length_le
  unfold push length
  by_cases hfull : w.bytes.length = n
  · have hone : w.bytes.length + 1 - n = 1 := by omega
    have hpos : 1 ≤ w.bytes.length := by omega
    rw [if_pos hfull]
    dsimp only
    rw [hone, List.drop_append_of_le_length hpos, List.drop_one]
  · have hzero : w.bytes.length + 1 - n = 0 := by omega
    rw [if_neg hfull]
    dsimp only
    rw [hzero, List.drop_zero]

/-- Rows of the same length are equal if they agree place by place. -/
theorem all_zip_beq {xs ys : Bytes} (h : xs.length = ys.length) :
    ((xs.zip ys).all fun p => p.1 == p.2) = true ↔ xs = ys := by
  induction xs generalizing ys with
  | nil =>
    have hys : ys = [] := List.length_eq_zero_iff.1 h.symm
    simp [hys]
  | cons x xs ih =>
    cases ys with
    | nil => simp at h
    | cons y ys =>
      have hrest := ih (Nat.succ.inj h)
      simp [hrest]

/-- **The last bytes of a window are compared with a tag one by one**, if there are enough of them. -/
theorem endsWith_eq_all (w : Window n) (tag : Bytes) :
    w.endsWith tag = (!tag.isEmpty && decide (tag.length ≤ w.length) &&
      ((w.bytes.drop (w.length - tag.length)).zip tag).all fun p => p.1 == p.2) := by
  have hlast : tag <:+ w.bytes ↔ tag.length ≤ w.length ∧
      ((w.bytes.drop (w.length - tag.length)).zip tag).all (fun p => p.1 == p.2) = true := by
    constructor
    · intro h
      have hle : tag.length ≤ w.bytes.length := h.length_le
      have hdrop : w.bytes.drop (w.bytes.length - tag.length) = tag :=
        (List.suffix_iff_eq_drop.1 h).symm
      refine ⟨hle, ?_⟩
      unfold length
      rw [hdrop, all_zip_beq rfl]
    · intro h
      obtain ⟨hle, hall⟩ := h
      have hlen : (w.bytes.drop (w.length - tag.length)).length = tag.length := by
        unfold length at hle ⊢
        rw [List.length_drop]
        omega
      rw [all_zip_beq hlen] at hall
      rw [← hall]
      exact List.drop_suffix _ _
  rw [Bool.eq_iff_iff]
  unfold endsWith Bytes.endsWith
  simp only [Bool.and_eq_true, List.isSuffixOf_iff_suffix, decide_eq_true_eq, hlast, and_assoc]

theorem extract_eq (w : Window n) (m skip : Nat) :
    w.extract m skip =
      (text? (w.bytes.take (min m (w.length - skip)))).elim (.error .parse) .ok := by
  unfold extract length
  rw [List.take_take]
  cases text? (w.bytes.take (min m (w.bytes.length - skip))) with
  | none => rfl
  | some s => rfl

/-- **A text is cut out if the bytes are the UTF-8 of one**, and it is that text. -/
theorem extract_eq_ok_iff {w : Window n} {m skip : Nat} {s : String} :
    w.extract m skip = .ok s ↔ utf8 s = w.bytes.take (min m (w.length - skip)) := by
  rw [extract_eq, ← text?_eq_some_iff]
  cases text? (w.bytes.take (min m (w.length - skip))) with
  | none => simp
  | some t => simp

/-- Nothing but bytes that are no UTF-8 keeps a text from being cut out. -/
theorem extract_eq_error_iff {w : Window n} {m skip : Nat} {f : Fault} :
    w.extract m skip = .error f ↔
      f = .parse ∧ ∀ s, utf8 s ≠ w.bytes.take (min m (w.length - skip)) := by
  rw [extract_eq, ← text?_eq_none_iff]
  cases text? (w.bytes.take (min m (w.length - skip))) with
  | none => simp [eq_comm]
  | some t => simp

/-! ### Rows of steps -/

/-- What is done to a window. -/
inductive Step where
  | push (b : UInt8)
  | reset

namespace Step

/-- The byte that is pushed. -/
def byte? : Step → Option UInt8
  | push b => some b
  | reset => none

end Step

/-- A window after one step. -/
def step (w : Window n) : Step → Window n
  | .push b => w.push b
  | .reset => empty

/-- A new window after a row of steps. -/
def run (steps : List Step) : Window n := steps.foldl step empty

/-- **The bytes pushed since the last reset**, or since the beginning if there was none. -/
def pushed (steps : List Step) : Bytes :=
  (steps.rtakeWhile fun s => s.byte?.isSome).filterMap Step.byte?

theorem pushed_concat (steps : List Step) (s : Step) :
    pushed (steps ++ [s]) = if s.byte?.isSome then pushed steps ++ s.byte?.toList else [] := by
  unfold pushed
  rw [List.rtakeWhile_concat]
  cases s with
  | push b => simp [Step.byte?]
  | reset => simp [Step.byte?]

/-- **What a window was pushed since the last reset is all that its state depends on.** -/
theorem run_eq_last (steps : List Step) : (run steps : Window n) = last (pushed steps) := by
  induction steps using List.reverseRecOn with
  | nil => rfl
  | append_singleton steps s ih =>
    have hrun : (run (steps ++ [s]) : Window n) = (run steps).step s := by
      unfold run
      rw [List.foldl_append, List.foldl_cons, List.foldl_nil]
    rw [hrun, pushed_concat, ih]
    cases s with
    | push b => exact (last_append _ b).symm
    | reset => rfl

/-- **A window recalls the last of the bytes that were pushed since it was reset**, in order and as many as
it has room for, whatever was done to it before. It ends with a tag exactly if the tag is not empty, has
room in the window, and was pushed last. What is cut out are the first bytes of what it recalls, at most
`m` of them and none of the last `skip`: as a text if they are the UTF-8 of one, and as a fault if not. -/
theorem run_recalls (n : Nat) (steps : List Step) :
    let w : Window n := run steps
    let h := pushed steps
    (w.bytes <:+ h ∧ w.length = min n h.length) ∧
      (∀ tag, w.endsWith tag = true ↔ tag ≠ [] ∧ tag.length ≤ n ∧ tag <:+ h) ∧
      ∀ m skip,
        (∀ s, w.extract m skip = .ok s ↔ utf8 s = w.bytes.take (min m (w.length - skip))) ∧
        ∀ f, w.extract m skip = .error f ↔
          f = .parse ∧ ∀ s, utf8 s ≠ w.bytes.take (min m (w.length - skip)) := by
  intro w h
  have hw : w = last h := run_eq_last steps
  refine ⟨⟨?_, ?_⟩, fun tag => ?_, fun m skip => ⟨fun s => extract_eq_ok_iff, fun f => extract_eq_error_iff⟩⟩
  · rw [hw, bytes_last]
    exact List.drop_suffix _ _
  · unfold length
    rw [hw, bytes_last, List.length_drop]
    omega
  · rw [hw]
    exact endsWith_last h tag

end Window

end EspWifi
