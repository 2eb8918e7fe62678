import EspWifi.Proofs.At.Spelling

/-!
# Exactly one number

Which bytes `Engine.readInt` takes, in terms of the bytes alone: it cuts them into what comes before a
number, a sign, a row of digits and the rest. It works on machine words, and no word overflows unnoticed.

* `Numeral.Layout`: bytes cut at their first number, and the value of that number.
* `Numeral.Layout.parse_iff`: **a number is read exactly if there is a digit and the value fits.**
* `Register`: a number on machine words; `Register.parse_eq`: **they come to the same.**
* `Engine.readInt_layout`: reading a number from bytes that wait.
-/

namespace EspWifi

open Run

/-! ### The cut -/

namespace Numeral

variable {w rest : Bytes} {i : Int}

/-- **Bytes, cut at their first number.** -/
structure Layout where
  /-- What is skipped. -/
  gap : Bytes
  /-- A minus sign comes next. -/
  negative : Bool
  digits : Bytes
  rest : Bytes

namespace Layout

/-- The cut: the longest beginning that no number starts in, a minus sign if one is there, and as many
digits as follow. -/
def of (w : Bytes) : Layout :=
  let found := w.dropWhile fun b => !starts b
  let negative := found.head? == some (ascii '-')
  let tail := if negative then found.tail else found
  { gap := w.takeWhile fun b => !starts b
    negative
    digits := tail.takeWhile isDigitByte
    rest := tail.dropWhile isDigitByte }

variable (l : Layout)

def sign : Bytes := if l.negative then [ascii '-'] else []

def bytes : Bytes := l.gap ++ l.sign ++ l.digits ++ l.rest

/-- The value of the digits, without the sign. -/
def magnitude : Nat := l.digits.foldl (fun v b => 10 * v + (b.toNat - 48)) 0

def value : Int := if l.negative then -l.magnitude else l.magnitude

/-- Nothing is lost in the cut. -/
theorem bytes_of (w : Bytes) : (of w).bytes = w := by
  have htail : (of w).sign ++ (of w).digits ++ (of w).rest = w.dropWhile fun b => !starts b := by
    rw [List.append_assoc]
    unfold of sign
    dsimp only
    rw [List.takeWhile_append_dropWhile]
    split
    · rename_i hminus
      have hhead : (w.dropWhile fun b => !starts b).head? = some (ascii '-') := by
        simpa using hminus
      rw [List.singleton_append]
      exact List.cons_head?_tail hhead
    · rfl
  have hgap : (of w).gap ++ (w.dropWhile fun b => !starts b) = w := List.takeWhile_append_dropWhile
  rw [← htail] at hgap
  simpa [bytes] using hgap

theorem isDigitByte_of_mem {b : UInt8} (h : b ∈ (of w).digits) : isDigitByte b = true :=
  List.mem_takeWhile_imp h

theorem not_starts_of_mem {b : UInt8} (h : b ∈ (of w).gap) : starts b = false := by
  simpa using List.mem_takeWhile_imp h

theorem head?_rest (w : Bytes) : ∀ b ∈ (of w).rest.head?, isDigitByte b = false := by
  intro b hb
  have hhead := List.head?_dropWhile_not isDigitByte
    (if (w.dropWhile fun b => !starts b).head? == some (ascii '-') then
      (w.dropWhile fun b => !starts b).tail else w.dropWhile fun b => !starts b)
  have hrest : (of w).rest.head? = some b := hb
  unfold of at hrest
  rw [hrest] at hhead
  simpa using hhead

/-- Digits on the wire are those of characters. -/
theorem exists_chars {ds : Bytes} (h : ∀ b ∈ ds, isDigitByte b = true) :
    ∃ cs : List Char, (∀ c ∈ cs, c.isDigit = true) ∧ cs.map ascii = ds := by
  induction ds with
  | nil => exact ⟨[], nofun, rfl⟩
  | cons b ds ih =>
    obtain ⟨hb, hds⟩ := List.forall_mem_cons.1 h
    obtain ⟨c, hc, rfl⟩ := exists_ascii_of_isDigitByte hb
    obtain ⟨cs, hcs, rfl⟩ := ih hds
    exact ⟨c :: cs, List.forall_mem_cons.2 ⟨hc, hcs⟩, rfl⟩

/-- They have the same value. -/
theorem foldl_map_ascii {cs : List Char} (h : ∀ c ∈ cs, c.isDigit = true) (v : Nat) :
    (cs.map ascii).foldl (fun v b => 10 * v + (b.toNat - 48)) v = Nat.ofDigitChars 10 cs v := by
  induction cs generalizing v with
  | nil => rfl
  | cons c cs ih =>
    obtain ⟨hc, hcs⟩ := List.forall_mem_cons.1 h
    have hbound := toNat_of_isDigit hc
    rw [List.map_cons, List.foldl_cons, ih hcs, Nat.ofDigitChars_cons, toNat_ascii (by omega)]
    rfl

/-- **A token is cut into its parts**, if no digit comes right after it. -/
theorem of_token (t : Token) (hrest : ∀ b ∈ rest.head?, isDigitByte b = false) :
    of (t.bytes ++ rest) = ⟨t.gap, t.number.negative, t.number.digits.map ascii, rest⟩ := by
  have hidle : ∀ b ∈ t.gap, (!starts b) = true := fun b hb => by simp [t.idle b hb]
  have hbegins : ∀ b ∈ (t.number.bytes ++ rest).head?, (!starts b) = false :=
    fun b hb => by simp [t.number.head?_starts rest b hb]
  have hminus : ((t.number.bytes ++ rest).head? == some (ascii '-')) = t.number.negative := by
    rw [Bool.eq_iff_iff, beq_iff_eq, t.number.head?_eq_minus_iff]
  have htail : (if t.number.negative then (t.number.bytes ++ rest).tail else t.number.bytes ++ rest) =
      t.number.digits.map ascii ++ rest := by
    unfold Spelling.bytes Spelling.sign
    split <;> rfl
  have hdigits : ∀ b ∈ t.number.digits.map ascii, isDigitByte b = true :=
    fun _ => t.number.isDigitByte_of_mem
  unfold of Token.bytes
  simp only [List.append_assoc, takeWhile_front hidle hbegins, dropWhile_front hidle hbegins, hminus,
    htail, takeWhile_front hdigits hrest, dropWhile_front hdigits hrest]

/-- A cut with a digit in it is that of a token. -/
theorem exists_token (h : (of w).digits ≠ []) :
    ∃ t : Token, w = t.bytes ++ (of w).rest ∧ t.number.value = (of w).value := by
  obtain ⟨cs, hcs, hdigits⟩ := exists_chars fun _ => isDigitByte_of_mem (w := w)
  have hne : cs ≠ [] := by
    rintro rfl
    exact h hdigits.symm
  refine ⟨⟨(of w).gap, ⟨(of w).negative, cs, hne, hcs⟩, fun _ => not_starts_of_mem⟩, ?_, ?_⟩
  · have hall := bytes_of w
    unfold bytes at hall
    rw [← hdigits] at hall
    rw [Token.bytes, Spelling.bytes, ← List.append_assoc]
    exact hall.symm
  · have hmagnitude : Nat.ofDigitChars 10 cs 0 = (of w).magnitude := by
      rw [magnitude, ← hdigits, foldl_map_ascii hcs]
    unfold Spelling.value Spelling.magnitude value
    rw [hmagnitude]

/-- **A number is read exactly if there is a digit and the value fits into 32 bits**, and then it and what
comes before it is taken. -/
theorem parse_iff : parse w = (some i, rest) ↔
    (of w).digits ≠ [] ∧ (of w).value = i ∧ int32Min ≤ i ∧ i ≤ int32Max ∧ (of w).rest = rest := by
  rw [parse_eq_some_iff]
  constructor
  · rintro ⟨t, rfl, hrest, rfl, hmin, hmax⟩
    have hvalue : (of (t.bytes ++ rest)).value = t.number.value := by
      rw [of_token t hrest, value, magnitude, foldl_map_ascii t.number.isDigit]
      rfl
    rw [hvalue, of_token t hrest]
    exact ⟨by simp [t.number.digits_ne_nil], rfl, hmin, hmax, rfl⟩
  · rintro ⟨hdigits, rfl, hmin, hmax, rfl⟩
    obtain ⟨t, hw, hvalue⟩ := exists_token hdigits
    exact ⟨t, hw, head?_rest w, hvalue, hmin, hmax⟩

end Layout

end Numeral

/-! ### On machine words -/

/-- A whole number in a signed word of so many bits, if it fits. -/
def signed? (bits : Nat) (i : Int) : Option Int :=
  if -2 ^ (bits - 1) ≤ i ∧ i < 2 ^ (bits - 1) then some i else none

/-- **A number on machine words**, while it is read: its value has 64 bits, the count of its digits 32. -/
structure Register where
  negative : Bool := false
  value : Int := 0
  digits : Int := 0

namespace Register

/-- What the next byte does. -/
inductive Next where
  | take (r : Register)
  | stop
  /-- The value overflows, which is checked. -/
  | overflow
  /-- The count overflows, which is not. -/
  | fault

/-- The value with one more digit `d`: both steps are checked. -/
def shift (value : Int) (d : Nat) : Option Int :=
  (signed? 64 (value * 10)).bind fun v => signed? 64 (v + d)

def next (r : Register) (b : UInt8) : Next :=
  if b = ascii '-' ∧ r.digits = 0 ∧ !r.negative then .take { r with negative := true }
  else if isDigitByte b then
    match shift r.value (b - ascii '0').toNat, signed? 32 (r.digits + 1) with
    | none, _ => .overflow
    | some _, none => .fault
    | some value, some digits => .take { r with value, digits }
  else .stop

/-- The number that was read, as a word of 32 bits. The value is negated unchecked, so there may be no
result at all. -/
def result (r : Register) : Option (Option Int) :=
  if r.digits = 0 then some none
  else ((if r.negative then signed? 64 (-r.value) else some r.value)).map (signed? 32)

/-- What a register comes to that goes on with these bytes, unless a computation overflows unchecked. -/
def read (r : Register) : Bytes → Option (Option Int)
  | [] => r.result
  | b :: w =>
    match r.next b with
    | .take r => read r w
    | .stop => r.result
    | .overflow => some none
    | .fault => none

/-- The first number in some bytes, as the words show it. -/
def parse (w : Bytes) : Option (Option Int) := read {} (w.dropWhile fun b => !Numeral.starts b)

/-- The words of a number. -/
def of (n : Numeral) : Register := ⟨n.negative, n.value, n.digits⟩

variable {n m : Numeral} {b : UInt8} {w : Bytes}

/-- Both checks of a step come to one. -/
theorem shift_eq (v d : Nat) : shift v d =
    if v * 10 + d ≤ Numeral.accumulatorLimit then some ((v * 10 + d : Nat) : Int) else none := by
  unfold shift signed? Numeral.accumulatorLimit
  by_cases hfits : v * 10 + d ≤ 9223372036854775807
  · rw [if_pos (by omega), Option.bind_some, if_pos (by omega), if_pos hfits]
    rfl
  · rw [if_neg hfits]
    split
    · rw [Option.bind_some, if_neg (by omega)]
    · rfl

/-- **A byte does to the words what it does to the number**, if the count has room. -/
theorem next_of (hcount : isDigitByte b = true → n.digits + 1 < 2 ^ 31) :
    (of n).next b = match n.next b with
      | .take m => .take (of m)
      | .stop => .stop
      | .overflow => .overflow := by
  have hsign : (b = ascii '-' ∧ (of n).digits = 0 ∧ !(of n).negative) ↔
      (b = ascii '-' ∧ n.digits = 0 ∧ !n.negative) := by
    unfold of
    rw [Int.natCast_eq_zero]
  unfold next Numeral.next
  simp only [hsign]
  split
  · rfl
  split
  case isFalse => rfl
  case isTrue hdigit =>
    have hroom := hcount hdigit
    have hone : signed? 32 ((of n).digits + 1) = some ((n.digits + 1 : Nat) : Int) := by
      unfold signed? of
      rw [if_pos (by dsimp only; omega)]
      rfl
    have hshift := shift_eq n.value (b - ascii '0').toNat
    rw [hone, show (of n).value = n.value from rfl, hshift]
    by_cases hle : n.value * 10 + (b - ascii '0').toNat ≤ Numeral.accumulatorLimit
    · rw [if_pos hle, if_pos hle]
      rfl
    · rw [if_neg hle, if_neg hle]

/-- The value of a number stays in a word. -/
theorem value_le_of_next (hn : n.value ≤ Numeral.accumulatorLimit) (h : n.next b = .take m) :
    m.value ≤ Numeral.accumulatorLimit ∧
      m.digits ≤ n.digits + if isDigitByte b then 1 else 0 := by
  unfold Numeral.next at h
  split at h
  · obtain rfl := Numeral.Next.take.inj h
    exact ⟨hn, Nat.le_add_right _ _⟩
  · split at h
    · rename_i hdigit
      dsimp only at h
      split at h
      · rename_i hle
        obtain rfl := Numeral.Next.take.inj h
        rw [if_pos hdigit]
        exact ⟨hle, Nat.le_refl _⟩
      · cases h
    · cases h

/-- **The value is negated without an overflow**, and the result is the number. -/
theorem result_of (hn : n.value ≤ Numeral.accumulatorLimit) : (of n).result = some n.result := by
  unfold Numeral.accumulatorLimit at hn
  have hnegated : (if n.negative then signed? 64 (-(n.value : Int)) else some (n.value : Int)) =
      some (if n.negative then -(n.value : Int) else n.value) := by
    have hfits : signed? 64 (-(n.value : Int)) = some (-(n.value : Int)) := if_pos (by omega)
    rw [hfits]
    split <;> rfl
  unfold result of Numeral.result Numeral.int32Min Numeral.int32Max
  dsimp only
  by_cases hnone : n.digits = 0
  · rw [if_pos (Int.natCast_eq_zero.2 hnone), if_neg (by omega)]
  · rw [if_neg (mt Int.natCast_eq_zero.1 hnone), hnegated, Option.map_some]
    unfold signed?
    refine congrArg some (if_congr ?_ rfl rfl)
    omega

theorem read_of (hn : n.value ≤ Numeral.accumulatorLimit)
    (hcount : n.digits + w.countP isDigitByte < 2 ^ 31) : (of n).read w = some (n.read w).1 := by
  induction w generalizing n with
  | nil => exact result_of hn
  | cons b w ih =>
    rw [List.countP_cons] at hcount
    have hroom : isDigitByte b = true → n.digits + 1 < 2 ^ 31 := by
      intro hb
      rw [if_pos hb] at hcount
      omega
    rw [read, Numeral.read, next_of hroom]
    cases hnext : n.next b with
    | take m =>
      obtain ⟨hm, hdigits⟩ := value_le_of_next hn hnext
      exact ih hm (by omega)
    | stop => exact result_of hn
    | overflow => rfl

/-- **The words come to the number that is in the bytes**, and nothing overflows that is not checked. -/
theorem parse_eq (h : w.countP isDigitByte < 2 ^ 31) : parse w = some (Numeral.parse w).1 := by
  have hle : (w.dropWhile fun b => !Numeral.starts b).countP isDigitByte ≤ w.countP isDigitByte :=
    (List.dropWhile_sublist _).countP_le
  refine read_of (n := {}) (Nat.zero_le _) ?_
  show 0 + _ < _
  omega

end Register

/-! ### Reading one number -/

namespace Engine

open Numeral

variable {w : Bytes} {e : Engine Bench}

/-- **Reading a number takes exactly one.** The bytes that wait are cut at their first number. If it has a
digit and its value fits into 32 bits, that value is read, all up to the last digit is taken and what comes
after it waits; otherwise nothing is read. Machine words come to the same, and no computation on them
overflows unchecked. The reading returns on every clock that passes the timeout. -/
theorem readInt_layout (h : e.device.Waits w) (hcount : w.countP isDigitByte < 2 ^ 31) :
    (Layout.of w).bytes = w ∧
    (e.device.Passes e.timeouts.field → ∃ r e', readInt e = .ok r e') ∧
    ∀ r e', readInt e = .ok r e' →
      (∀ i, r = some i ↔ (Layout.of w).digits ≠ [] ∧ (Layout.of w).value = i ∧
        int32Min ≤ i ∧ i ≤ int32Max) ∧
      (r ≠ none → e'.device.Waits (Layout.of w).rest) ∧
      Register.parse w = some r := by
  have hread : wp (¬ e.device.Passes e.timeouts.field) readInt (fun r e' => r = (parse w).1 ∧
      e'.device.Waits (parse w).2) e := wp_readInt_waits h fun b hb _ => ⟨rfl, hb⟩
  refine ⟨Layout.bytes_of w, fun hpasses => ?_, fun r e' hrun => ?_⟩
  · obtain ⟨r, e', hrun, -⟩ := wp_false_iff.1 (wp_weaken hread fun hnever => hnever hpasses)
    exact ⟨r, e', hrun⟩
  · obtain ⟨rfl, hwaits⟩ := wp_of_ok hread hrun
    refine ⟨fun i => ?_, fun hsome => ?_, Register.parse_eq hcount⟩
    · constructor
      · intro hi
        obtain ⟨hdigits, hvalue, hmin, hmax, -⟩ := Layout.parse_iff.1 (Prod.ext hi rfl)
        exact ⟨hdigits, hvalue, hmin, hmax⟩
      · rintro ⟨hdigits, hvalue, hmin, hmax⟩
        rw [Layout.parse_iff.2 ⟨hdigits, hvalue, hmin, hmax, rfl⟩]
    · obtain ⟨i, hi⟩ := Option.ne_none_iff_exists'.1 hsome
      obtain ⟨-, -, -, -, hrest⟩ := Layout.parse_iff.1 (Prod.ext hi rfl)
      rwa [hrest]

/-- Zeros before a number take no part in it, and the byte behind it is left. -/
theorem readInt_layout_zeros : ∃ e' : Engine Bench,
    readInt { device := { rx := utf8 "ok: -0042,7" } } = .ok (some (-42)) e' ∧
      e'.device.Waits (utf8 ",7") := by
  obtain ⟨-, hreturns, hresult⟩ :=
    readInt_layout (e := { device := { rx := utf8 "ok: -0042,7" } }) (w := utf8 "ok: -0042,7") ⟨rfl, rfl⟩
      (by decide)
  obtain ⟨r, e', hrun⟩ := hreturns (Bench.passes_of_step_one rfl _)
  obtain ⟨hiff, hrest, -⟩ := hresult r e' hrun
  obtain rfl : r = some (-42) := (hiff (-42)).2 (by decide)
  exact ⟨e', hrun, hrest (by decide)⟩

end Engine

end EspWifi
