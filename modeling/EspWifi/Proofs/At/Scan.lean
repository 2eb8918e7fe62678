import EspWifi.At.Engine
import Mathlib.Data.List.Infix
import Mathlib.Tactic.ByContra

/-!
# What a scan sees

A scan looks at the bytes it has read since it began through a window of bounded size.

* `bytes_last`, `endsWith_last`: the window holds the last bytes, and a tag matches its end exactly
  when it fits into the window and the bytes end with it.
* `Scan.of`, `Scan.Silent`, `Scan.Decided`: the verdict on the bytes read so far, byte strings of which
  no beginning has one, and those of which no proper beginning has one.
* `Silent.eq_of_found`: a scan for one tag ends at the first place where the tag is complete.
-/

namespace EspWifi

variable {n : Nat}

namespace Window

/-- The window after the bytes `c`. -/
def last (c : Bytes) : Window n := c.foldl push empty

theorem last_append (c : Bytes) (b : UInt8) : (last (c ++ [b]) : Window n) = (last c).push b := by
  unfold last
  rw [List.foldl_append]
  rfl

/-- **The window holds the last bytes**, as many as fit. -/
theorem bytes_last (c : Bytes) : (last c : Window n).bytes = c.drop (c.length - n) := by
  induction c using List.reverseRecOn with
  | nil => simp [last, empty]
  | append_singleton c b ih =>
    rw [last_append]
    simp only [push, ih, List.length_drop, List.length_append, List.length_singleton]
    rw [← List.drop_append_of_le_length (by omega), List.drop_drop]
    congr 1
    omega

/-- **A tag matches when it fits into the window and the bytes end with it.** -/
theorem endsWith_last (c tag : Bytes) :
    (last c : Window n).endsWith tag = true ↔ tag ≠ [] ∧ tag.length ≤ n ∧ tag <:+ c := by
  unfold endsWith Bytes.endsWith
  rw [bytes_last, Bool.and_eq_true, Bool.not_eq_true', List.isEmpty_eq_false_iff,
    List.isSuffixOf_iff_suffix]
  refine and_congr_right fun _ => ?_
  constructor
  · intro h
    have hlen := h.length_le
    rw [List.length_drop] at hlen
    exact ⟨by omega, h.trans (List.drop_suffix _ _)⟩
  · rintro ⟨hn, hc⟩
    have hlen := hc.length_le
    refine List.suffix_of_suffix_length_le hc (List.drop_suffix _ _) ?_
    rw [List.length_drop]
    omega

end Window

/-- A scan tests every tag. -/
theorem Tag.mem_all (t : Tag) : t ∈ Tag.all := by
  cases t <;> decide

namespace Scan

/-- The verdict on the bytes that a scan has read since it began. -/
def of (c : Bytes) (tag : Option Bytes) (known : Bool) : Option Scan :=
  verdict (Window.last c : Window windowSize) tag known

/-- **No beginning of `c` ends a scan.** -/
def Silent (tag : Option Bytes) (known : Bool) (c : Bytes) : Prop :=
  ∀ p, p <+: c → of p tag known = none

/-- **The bytes `c` end a scan in this way**, and no beginning of them ends it. -/
structure Decided (tag : Option Bytes) (known : Bool) (c : Bytes) (s : Scan) : Prop where
  verdict : of c tag known = some s
  first : ∀ p, p <+: c → p ≠ c → of p tag known = none

/-- **Bytes are decided at one place at most.** -/
theorem Decided.bytes_unique {tag : Option Bytes} {known : Bool} {c c' all : Bytes} {s s' : Scan}
    (h : Decided tag known c s) (h' : Decided tag known c' s') (hc : c <+: all) (hc' : c' <+: all) :
    c = c' := by
  by_contra hne
  rcases List.prefix_or_prefix_of_prefix hc hc' with hp | hp
  · have hnone := h'.first c hp hne
    rw [h.verdict] at hnone
    cases hnone
  · have hnone := h.first c' hp (Ne.symm hne)
    rw [h'.verdict] at hnone
    cases hnone

/-- A scan for a single tag ends when the tag is complete. -/
theorem of_eq_found {c tag : Bytes} (h : tag.length ≤ windowSize) :
    of c (some tag) false = some found ↔ tag ≠ [] ∧ tag <:+ c := by
  unfold of verdict
  rw [Option.any_some]
  by_cases hw : (Window.last c : Window windowSize).endsWith tag = true
  · rw [if_pos hw]
    have := (Window.endsWith_last c tag).1 hw
    exact ⟨fun _ => ⟨this.1, this.2.2⟩, fun _ => rfl⟩
  · rw [if_neg hw]
    constructor
    · intro hnone
      exact absurd hnone (by simp)
    · rintro ⟨hne, hs⟩
      exact absurd ((Window.endsWith_last c tag).2 ⟨hne, h, hs⟩) hw

/-- A scan for a single tag ends in no other way. -/
theorem eq_found_of {c : Bytes} {tag : Bytes} {s : Scan} (h : of c (some tag) false = some s) :
    s = found := by
  unfold of verdict at h
  split at h
  · exact (Option.some.inj h).symm
  · exact absurd h (by simp)

/-- A verdict that names a known tag was given on bytes that end with it. -/
theorem suffix_of_matched {c : Bytes} {tag : Option Bytes} {known : Bool} {t : Tag}
    (h : of c tag known = some (matched t)) : t.bytes <:+ c := by
  unfold of verdict at h
  split at h
  · exact absurd h (by simp)
  split at h
  · obtain ⟨u, hu, hm⟩ := Option.map_eq_some_iff.1 h
    obtain rfl : u = t := by simpa using hm
    have := List.find?_some hu
    exact ((Window.endsWith_last c u.bytes).1 this).2.2
  · exact absurd h (by simp)

/-- A scan for no tag of its own can only end with a known one. -/
theorem eq_matched_of {c : Bytes} {known : Bool} {s : Scan} (h : of c none known = some s) :
    ∃ t, s = matched t := by
  unfold of verdict at h
  rw [Option.any_none, if_neg Bool.false_ne_true] at h
  split at h
  · obtain ⟨t, -, rfl⟩ := Option.map_eq_some_iff.1 h
    exact ⟨t, rfl⟩
  · exact absurd h (by simp)

namespace Silent

variable {tag : Option Bytes} {known : Bool} {c : Bytes}

theorem nil : Silent tag known [] := by
  intro p hp
  obtain rfl : p = [] := List.prefix_nil.1 hp
  have hend : ∀ t, (Window.last [] : Window windowSize).endsWith t = false := by
    intro t
    rw [← Bool.not_eq_true, Window.endsWith_last]
    rintro ⟨hne, -, hs⟩
    exact hne (List.suffix_nil.1 hs)
  unfold of verdict
  cases tag <;> cases known <;> simp [hend, Tag.all]

/-- One more byte without a verdict. -/
theorem append {b : UInt8} (h : Silent tag known c) (hb : of (c ++ [b]) tag known = none) :
    Silent tag known (c ++ [b]) := by
  intro p hp
  rcases List.prefix_concat_iff.1 hp with rfl | hp
  · exact hb
  · exact h p hp

/-- The first byte with a verdict ends the scan. -/
theorem decided {b : UInt8} {s : Scan} (h : Silent tag known c)
    (hb : of (c ++ [b]) tag known = some s) : Decided tag known (c ++ [b]) s where
  verdict := hb
  first := by
    intro p hp hne
    rcases List.prefix_concat_iff.1 hp with rfl | hp
    · exact absurd rfl hne
    · exact h p hp

/-- **Where a scan for one tag ends.** If the tag is complete after `pre ++ tag` and not before, a scan
that ends after `c ++ [b]` has read exactly these bytes. -/
theorem eq_of_found {pre tag : Bytes} {b : UInt8} (hlen : tag.length ≤ windowSize)
    (hne : tag ≠ []) (first : ∀ p, p <+: pre ++ tag → p ≠ pre ++ tag → ¬ tag <:+ p)
    (hc : Silent (some tag) false c) {s : Scan} (hs : of (c ++ [b]) (some tag) false = some s)
    {w rest rest' : Bytes} (hw : w = pre ++ tag ++ rest) (hw' : w = c ++ [b] ++ rest') :
    c ++ [b] = pre ++ tag ∧ rest' = rest := by
  obtain rfl := eq_found_of hs
  have hsuf := ((of_eq_found hlen).1 hs).2
  have heq : c ++ [b] = pre ++ tag := by
    have h1 : pre ++ tag <+: w := hw ▸ List.prefix_append _ _
    have h2 : c ++ [b] <+: w := hw' ▸ List.prefix_append _ _
    -- had it ended before the tag, the tag would be complete too early; after it, too late
    rcases List.prefix_or_prefix_of_prefix h2 h1 with h | h
    · by_contra hcon
      exact first _ h hcon hsuf
    · rcases List.prefix_concat_iff.1 h with h | h
      · exact h.symm
      · have hfound : of (pre ++ tag) (some tag) false = some found :=
          (of_eq_found hlen).2 ⟨hne, List.suffix_append _ _⟩
        rw [hc _ h] at hfound
        exact absurd hfound (by simp)
  refine ⟨heq, ?_⟩
  rw [heq] at hw'
  exact (List.append_cancel_left (hw ▸ hw')).symm

end Silent

/-- A verdict takes a byte at least. -/
theorem ne_nil_of {c : Bytes} {tag : Option Bytes} {known : Bool} {s : Scan}
    (h : of c tag known = some s) : c ≠ [] := by
  rintro rfl
  rw [Silent.nil [] (List.prefix_refl _)] at h
  exact absurd h (by simp)

/-- A tag cannot be complete before its place if its first byte does not occur before it. -/
theorem first_of_head {pre t : Bytes} {a : UInt8} (h : a ∉ pre) :
    ∀ p, p <+: pre ++ a :: t → p ≠ pre ++ a :: t → ¬ a :: t <:+ p := by
  rintro p hp hne ⟨q, rfl⟩
  have hlen := hp.length_le
  have hlt : q.length < pre.length := by
    by_contra hcon
    refine hne (hp.eq_of_length_le ?_)
    simp only [List.length_append, List.length_cons] at hlen ⊢
    omega
  have hget : (pre ++ a :: t)[q.length]? = some a := by
    obtain ⟨r, hr⟩ := hp
    rw [← hr]
    simp
  rw [List.getElem?_append_left hlt] at hget
  exact h (List.mem_of_getElem? hget)

/-- Bytes without the first byte of a tag have no verdict. -/
theorem silent_of_head {c t : Bytes} {a : UInt8} (h : a ∉ c) :
    Silent (some (a :: t)) false c := by
  intro p hp
  cases hs : of p (some (a :: t)) false with
  | none => rfl
  | some s =>
    obtain rfl := eq_found_of hs
    unfold of verdict at hs
    rw [Option.any_some] at hs
    split at hs
    · rename_i hw
      have hsuf := ((Window.endsWith_last p (a :: t)).1 hw).2.2
      exact absurd (hp.subset (hsuf.subset List.mem_cons_self)) h
    · exact absurd hs (by simp)

/-! ### The prompt -/

/-- A scan that goes on has not read the prompt. -/
theorem Silent.prompt_not_mem {c : Bytes} (h : Silent (some (utf8 sendPrompt)) false c) :
    ascii '>' ∉ c := by
  intro hmem
  obtain ⟨pre, post, rfl⟩ := List.append_of_mem hmem
  have hnone := h (pre ++ [ascii '>']) ⟨post, by simp⟩
  have hfound : of (pre ++ [ascii '>']) (some (utf8 sendPrompt)) false = some found :=
    (of_eq_found (by decide)).2 ⟨by decide, List.suffix_append _ _⟩
  rw [hfound] at hnone
  cases hnone

/-- A scan that has seen the prompt has read it last, and for the first time. -/
theorem Decided.prompt_eq {c : Bytes} {s : Scan} (h : Decided (some (utf8 sendPrompt)) false c s) :
    ∃ before, c = before ++ [ascii '>'] ∧ ascii '>' ∉ before := by
  obtain rfl := eq_found_of h.verdict
  obtain ⟨-, before, rfl⟩ := (of_eq_found (by decide)).1 h.verdict
  have hsilent : Silent (some (utf8 sendPrompt)) false before := by
    intro p hp
    refine h.first p (hp.trans (List.prefix_append _ _)) ?_
    rintro rfl
    have hle := hp.length_le
    rw [List.length_append] at hle
    have : (utf8 sendPrompt).length = 1 := by decide
    omega
  exact ⟨before, rfl, hsilent.prompt_not_mem⟩

theorem Decided.prompt_mem {c : Bytes} {s : Scan}
    (h : Decided (some (utf8 sendPrompt)) false c s) : ascii '>' ∈ c := by
  obtain ⟨before, rfl, -⟩ := h.prompt_eq
  exact List.mem_append_right _ List.mem_cons_self

end Scan

end EspWifi
