import EspWifi.At.Command
import EspWifi.Proofs.Text.Decimal
import Mathlib.Data.List.Chain

/-!
# Line ends

A line of the protocol ends where a carriage return comes before a line feed. Text goes out in UTF-8, and
there the bytes of the two stand for these two characters only, so whether a text breaks a line can be
told from its characters.

* `IsLine`: bytes in which the line end comes at the end and nowhere else.
* `apart_utf8`: **two ASCII characters are neighbours exactly if their bytes are.**
* `isLine_utf8`: whether a text makes one line.
-/

namespace EspWifi

/-- **The line end stands at the end of the bytes and nowhere else.** -/
def IsLine (b : Bytes) : Prop :=
  utf8 lineEnd <:+ b ∧ ∀ before after, b = before ++ utf8 lineEnd ++ after → after = []

/-! ### Neighbours in a list -/

/-- In the list `y` nowhere comes right after `x`. -/
def Apart {α : Type} (x y : α) (l : List α) : Prop := l.IsChain fun a b => ¬ (a = x ∧ b = y)

section Apart

variable {α : Type} {x y : α} {l m : List α}

theorem apart_iff : Apart x y l ↔ ¬ [x, y] <:+: l := by
  unfold Apart
  rw [List.isChain_iff_forall_rel_of_append_cons_cons]
  constructor
  · rintro h ⟨before, after, rfl⟩
    have hl : before ++ [x, y] ++ after = before ++ x :: y :: after := by simp
    exact h hl ⟨rfl, rfl⟩
  · rintro h a b before after rfl ⟨rfl, rfl⟩
    exact h ⟨before, after, by simp⟩

theorem apart_append :
    Apart x y (l ++ m) ↔ Apart x y l ∧ Apart x y m ∧ ¬ (x ∈ l.getLast? ∧ y ∈ m.head?) := by
  unfold Apart
  rw [List.isChain_append]
  refine and_congr_right fun _ => and_congr_right fun _ => ?_
  constructor
  · rintro h ⟨hx, hy⟩
    exact h x hx y hy ⟨rfl, rfl⟩
  · rintro h _ hx _ hy ⟨rfl, rfl⟩
    exact h ⟨hx, hy⟩

theorem apart_cons : Apart x y (a :: l) ↔ Apart x y l ∧ ¬ (a = x ∧ y ∈ l.head?) := by
  have h := apart_append (x := x) (y := y) (l := [a]) (m := l)
  have ha : Apart x y [a] := .singleton a
  rw [List.singleton_append] at h
  simpa [ha] using h

/-- Where neither of the two is there, they are apart. -/
theorem apart_of_not_mem (h : x ∉ l) : Apart x y l := by
  rw [apart_iff]
  rintro ⟨before, after, rfl⟩
  exact h (by simp)

theorem apart_of_not_mem_right (h : y ∉ l) : Apart x y l := by
  rw [apart_iff]
  rintro ⟨before, after, rfl⟩
  exact h (by simp)

/-- A third element keeps two parts of a list apart. -/
theorem apart_append_cons (hx : a ≠ x) (hy : a ≠ y) :
    Apart x y (l ++ a :: m) ↔ Apart x y l ∧ Apart x y m := by
  rw [apart_append, apart_cons]
  simp [hx, hy]

end Apart

/-! ### UTF-8 -/

theorem text?_utf8 (s : String) : text? (utf8 s) = some s := by
  have h : (⟨(utf8 s).toArray⟩ : ByteArray) = s.toByteArray := rfl
  unfold text? String.fromUTF8?
  rw [h, dif_pos s.isValidUTF8]
  rfl

theorem utf8_ofList_cons (c : Char) (cs : List Char) :
    utf8 (String.ofList (c :: cs)) = String.utf8EncodeChar c ++ utf8 (String.ofList cs) := by
  unfold utf8
  rw [String.toUTF8_eq_toByteArray, String.toUTF8_eq_toByteArray, String.toByteArray_ofList,
    String.toByteArray_ofList, List.utf8Encode_cons, List.utf8Encode_singleton,
    ByteArray.data_append, Array.toList_append]
  simp

theorem utf8EncodeChar_ascii {c : Char} (h : c.toNat < 128) : String.utf8EncodeChar c = [ascii c] := by
  have := utf8_ofList_cons c []
  rw [utf8_ofList (by simpa using h)] at this
  simpa [utf8] using this.symm

/-- A character that is not ASCII has no ASCII byte. -/
theorem le_of_mem_utf8EncodeChar {c : Char} (h : 128 ≤ c.toNat) {b : UInt8}
    (hb : b ∈ String.utf8EncodeChar c) : 128 ≤ b.toNat := by
  have hv : ¬ c.val.toNat ≤ 0x7f := fun hle => absurd h (Nat.not_le.2 (Nat.lt_succ_of_le hle))
  -- the first byte is at least `0xc0`, and each one after it at least `0x80`
  unfold String.utf8EncodeChar at hb
  simp only [if_neg hv] at hb
  split_ifs at hb
  all_goals
    simp only [List.mem_cons, List.not_mem_nil, or_false] at hb
    rcases hb with rfl | rfl | rfl | rfl
  all_goals
    rw [UInt8.toNat_ofNat']
    omega

theorem ascii_inj {c d : Char} (hc : c.toNat < 128) (hd : d.toNat < 128) :
    ascii c = ascii d ↔ c = d := by
  refine ⟨fun h => ?_, congrArg ascii⟩
  have := congrArg UInt8.toNat h
  rw [toNat_ascii (by omega), toNat_ascii (by omega)] at this
  exact Char.toNat_inj.1 this

/-- **Only the ASCII character itself begins with its byte.** -/
theorem ascii_mem_head?_utf8 {d : Char} (hd : d.toNat < 128) (cs : List Char) :
    ascii d ∈ (utf8 (String.ofList cs)).head? ↔ d ∈ cs.head? := by
  cases cs with
  | nil => simp [utf8]
  | cons c cs =>
    rw [utf8_ofList_cons]
    by_cases hc : c.toNat < 128
    · rw [utf8EncodeChar_ascii hc]
      simpa using ascii_inj hc hd
    · have hne : String.utf8EncodeChar c ≠ [] := String.utf8EncodeChar_ne_nil
      constructor
      · intro h
        rw [List.head?_append_of_ne_nil _ hne] at h
        have hle := le_of_mem_utf8EncodeChar (by omega) (List.mem_of_mem_head? h)
        rw [toNat_ascii (by omega)] at hle
        omega
      · intro h
        obtain rfl : c = d := by simpa using h
        exact absurd hd hc

/-- **Only the ASCII character itself has its byte.** -/
theorem ascii_mem_utf8 {d : Char} (hd : d.toNat < 128) (cs : List Char) :
    ascii d ∈ utf8 (String.ofList cs) ↔ d ∈ cs := by
  induction cs with
  | nil => simp [utf8]
  | cons c cs ih =>
    rw [utf8_ofList_cons, List.mem_append, ih, List.mem_cons]
    refine or_congr_left ?_
    by_cases hc : c.toNat < 128
    · rw [utf8EncodeChar_ascii hc, List.mem_singleton, ascii_inj hd hc]
    · constructor
      · intro h
        have hle := le_of_mem_utf8EncodeChar (by omega) h
        rw [toNat_ascii (by omega)] at hle
        omega
      · rintro rfl
        exact absurd hd hc

/-- **Two ASCII characters are neighbours exactly if their bytes are.** -/
theorem apart_utf8 {x y : Char} (hx : x.toNat < 128) (hy : y.toNat < 128) (cs : List Char) :
    Apart (ascii x) (ascii y) (utf8 (String.ofList cs)) ↔ Apart x y cs := by
  induction cs with
  | nil => exact iff_of_true .nil .nil
  | cons c cs ih =>
    rw [utf8_ofList_cons, apart_append, ih, apart_cons, ascii_mem_head?_utf8 hy]
    by_cases hc : c.toNat < 128
    · rw [utf8EncodeChar_ascii hc]
      have hone : Apart (ascii x) (ascii y) [ascii c] := .singleton _
      simp [hone, ascii_inj hc hx]
    · have hmem : ascii x ∉ String.utf8EncodeChar c := by
        intro h
        have hle := le_of_mem_utf8EncodeChar (by omega) h
        rw [toNat_ascii (by omega)] at hle
        omega
      have hlast : ascii x ∉ (String.utf8EncodeChar c).getLast? := fun h =>
        hmem (List.mem_of_getLast? h)
      have hcx : c ≠ x := by
        rintro rfl
        exact hc hx
      simp [apart_of_not_mem hmem, hlast, hcx]

theorem apart_utf8_string (s : String) :
    Apart (ascii '\r') (ascii '\n') (utf8 s) ↔ Apart '\r' '\n' s.toList := by
  have h := apart_utf8 (x := '\r') (y := '\n') (by decide) (by decide) s.toList
  rwa [String.ofList_toList] at h

/-- **A text followed by the line end makes one line exactly if there is no line end in it.** -/
theorem isLine_utf8 (s : String) : IsLine (utf8 (s ++ lineEnd)) ↔ ¬ lineEnd.toList <:+: s.toList := by
  have hend : utf8 lineEnd = [ascii '\r', ascii '\n'] := rfl
  have hchars : lineEnd.toList = ['\r', '\n'] := rfl
  rw [hchars, ← apart_iff, ← apart_utf8_string, apart_iff, utf8_append, hend]
  constructor
  · rintro ⟨-, hlast⟩ ⟨before, after, h⟩
    have := hlast before (after ++ [ascii '\r', ascii '\n']) (by rw [← h, hend]; simp)
    simp at this
  · intro h
    refine ⟨hend ▸ List.suffix_append _ _, fun before after hsplit => ?_⟩
    rw [hend] at hsplit
    -- whatever comes after takes the place of the line feed, and then of the carriage return
    obtain rfl | ⟨after, z, rfl⟩ := List.eq_nil_or_concat after
    · rfl
    have hfeed : (utf8 s ++ [ascii '\r']) ++ [ascii '\n'] =
        (before ++ [ascii '\r', ascii '\n'] ++ after) ++ [z] := by simpa using hsplit
    obtain ⟨hsplit, -⟩ := List.append_inj' hfeed rfl
    obtain rfl | ⟨after, z, rfl⟩ := List.eq_nil_or_concat after
    · have := congrArg List.getLast? hsplit
      simp [ascii] at this
    · have hreturn : utf8 s ++ [ascii '\r'] =
          (before ++ [ascii '\r', ascii '\n'] ++ after) ++ [z] := by simpa using hsplit
      obtain ⟨hsplit, -⟩ := List.append_inj' hreturn rfl
      exact absurd ⟨before, after, hsplit.symm⟩ h

end EspWifi
