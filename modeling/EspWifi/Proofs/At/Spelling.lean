import EspWifi.Proofs.At.Numerals
import Mathlib.Data.List.TakeWhile

/-!
# How numbers are spelled

A number is read from any of its spellings: with a minus sign or without, with zeros before it or not,
and behind any bytes that no number starts with.

* `Numeral.Spelling`: a row of digits, with a minus sign or without.
* `Numeral.parse_eq_some_iff`: **which bytes a number is read from.**
* `Numeral.Token`: a spelling and what is skipped before it; `Numeral.Token.append_inj`: **bytes are cut
  into them in one way only.**
-/

namespace EspWifi

/-- Every digit on the wire is that of a character. -/
theorem exists_ascii_of_isDigitByte {b : UInt8} (h : isDigitByte b = true) :
    ∃ c : Char, c.isDigit = true ∧ ascii c = b := by
  have hdigit : ∀ d : Fin 10, (Nat.digitChar d).isDigit = true ∧ (Nat.digitChar d).toNat = d + 48 := by
    decide
  have hb := isDigitByte_iff.1 h
  obtain ⟨hc, hvalue⟩ := hdigit ⟨b.toNat - 48, by omega⟩
  refine ⟨_, hc, ?_⟩
  rw [← UInt8.toNat_inj, toNat_ascii (by omega), hvalue]
  show b.toNat - 48 + 48 = b.toNat
  omega

/-- Rows of different digits differ on the wire. -/
theorem map_ascii_inj {cs cs' : List Char} (hcs : ∀ c ∈ cs, c.isDigit = true)
    (hcs' : ∀ c ∈ cs', c.isDigit = true) (h : cs.map ascii = cs'.map ascii) : cs = cs' := by
  have back {cs : List Char} (hcs : ∀ c ∈ cs, c.isDigit = true) :
      (cs.map ascii).map (fun b => Char.ofNat b.toNat) = cs := by
    rw [List.map_map, List.map_congr_left, List.map_id]
    intro c hc
    have := toNat_of_isDigit (hcs c hc)
    show Char.ofNat (ascii c).toNat = c
    rw [toNat_ascii (by omega), Char.ofNat_toNat]
  rw [← back hcs, ← back hcs', h]

section Front

variable {α : Type} {p : α → Bool} {x x' y y' : List α}

/-- The part of a row that satisfies `p` is found, and so is what comes after it. -/
theorem takeWhile_front (hx : ∀ a ∈ x, p a = true) (hy : ∀ a ∈ y.head?, p a = false) :
    (x ++ y).takeWhile p = x := by
  rw [List.takeWhile_append_of_pos hx]
  cases y with
  | nil => exact List.append_nil x
  | cons a y => rw [List.takeWhile_cons_of_neg (by simp [hy a rfl]), List.append_nil]

theorem dropWhile_front (hx : ∀ a ∈ x, p a = true) (hy : ∀ a ∈ y.head?, p a = false) :
    (x ++ y).dropWhile p = y := by
  rw [List.dropWhile_append_of_pos hx]
  cases y with
  | nil => rfl
  | cons a y => rw [List.dropWhile_cons_of_neg (by simp [hy a rfl])]

/-- Where the part of a row that satisfies `p` ends is told by the row alone. -/
theorem append_inj_of_forall (hx : ∀ a ∈ x, p a = true) (hx' : ∀ a ∈ x', p a = true)
    (hy : ∀ a ∈ y.head?, p a = false) (hy' : ∀ a ∈ y'.head?, p a = false) (h : x ++ y = x' ++ y') :
    x = x' ∧ y = y' := by
  constructor
  · rw [← takeWhile_front hx hy, h, takeWhile_front hx' hy']
  · rw [← dropWhile_front hx hy, h, dropWhile_front hx' hy']

end Front

namespace Numeral

/-- **A number as it is spelled**: its digits, and a minus sign before them if it has one. -/
@[ext]
structure Spelling where
  negative : Bool := false
  digits : List Char
  digits_ne_nil : digits ≠ []
  isDigit : ∀ c ∈ digits, c.isDigit = true

namespace Spelling

/-- The sign, as it goes over the wire. -/
def sign (s : Spelling) : Bytes := if s.negative then [ascii '-'] else []

def bytes (s : Spelling) : Bytes := s.sign ++ s.digits.map ascii

/-- The number, without its sign. -/
def magnitude (s : Spelling) : Nat := Nat.ofDigitChars 10 s.digits 0

def value (s : Spelling) : Int := if s.negative then -s.magnitude else s.magnitude

/-- A number as it is written: no sign, and no zeros before it. -/
def ofNat (n : Nat) : Spelling where
  digits := decimalDigits n
  digits_ne_nil := decimalDigits_ne_nil n
  isDigit _ := isDigit_of_mem_decimalDigits

theorem bytes_ofNat (n : Nat) : (ofNat n).bytes = decimal n := (decimal_eq n).symm

theorem value_ofNat (n : Nat) : (ofNat n).value = n :=
  congrArg Nat.cast (Nat.ofDigitChars_ten_toDigits (n := n))

/-- A whole number as it is written. -/
def ofInt (i : Int) : Spelling := { ofNat i.natAbs with negative := decide (i < 0) }

theorem value_ofInt (i : Int) : (ofInt i).value = i := by
  have hmagnitude : ((ofInt i).magnitude : Int) = i.natAbs := value_ofNat i.natAbs
  have hnegative : (ofInt i).negative = decide (i < 0) := rfl
  unfold value
  rw [hmagnitude, hnegative]
  split
  · rename_i h
    have := of_decide_eq_true h
    omega
  · rename_i h
    have := of_decide_eq_false (Bool.eq_false_iff.2 h)
    omega

theorem bytes_ofInt (i : Int) : (ofInt i).bytes = utf8 (toString i) := by
  cases i with
  | ofNat n => exact bytes_ofNat n
  | negSucc n =>
    have hnegative : (ofInt (Int.negSucc n)).negative = true := decide_eq_true (Int.negSucc_lt_zero n)
    have htext : toString (Int.negSucc n) = "-" ++ toString (n + 1) := rfl
    have hdigits : (ofInt (Int.negSucc n)).digits = decimalDigits (n + 1) := rfl
    rw [bytes, sign, if_pos hnegative, hdigits, htext, utf8_append, ← decimal_eq]
    rfl

variable (s : Spelling)

theorem exists_cons : ∃ b w, s.bytes = b :: w ∧ starts b = true := by
  obtain ⟨negative, digits, hne, hdigits⟩ := s
  cases negative with
  | true => exact ⟨_, _, rfl, by decide⟩
  | false =>
    cases digits with
    | nil => exact absurd rfl hne
    | cons c cs =>
      refine ⟨ascii c, cs.map ascii, rfl, ?_⟩
      simp [starts, isDigitByte_ascii (hdigits c List.mem_cons_self)]

/-- The first byte tells whether there is a sign. -/
theorem head?_eq_minus_iff (rest : Bytes) :
    (s.bytes ++ rest).head? = some (ascii '-') ↔ s.negative = true := by
  unfold bytes sign
  obtain ⟨negative, cs, hne, hcs⟩ := s
  cases negative with
  | true => simp
  | false =>
    cases cs with
    | nil => exact absurd rfl hne
    | cons c cs =>
      have hc := isDigitByte_ascii (hcs c List.mem_cons_self)
      have : ascii c ≠ ascii '-' := by
        intro heq
        rw [heq] at hc
        exact absurd hc (by decide)
      simpa using this

theorem isDigitByte_of_mem {b : UInt8} (h : b ∈ s.digits.map ascii) : isDigitByte b = true := by
  obtain ⟨c, hc, rfl⟩ := List.mem_map.1 h
  exact isDigitByte_ascii (s.isDigit c hc)

theorem head?_starts (rest : Bytes) : ∀ b ∈ (s.bytes ++ rest).head?, starts b = true := by
  obtain ⟨b, w, hw, hb⟩ := s.exists_cons
  rw [hw]
  rintro _ ⟨⟩
  exact hb

variable {s} in
/-- Where a spelling ends is told by the bytes alone, and so is the spelling. -/
theorem append_inj {s' : Spelling} {rest rest' : Bytes}
    (hrest : ∀ b ∈ rest.head?, isDigitByte b = false)
    (hrest' : ∀ b ∈ rest'.head?, isDigitByte b = false) (h : s.bytes ++ rest = s'.bytes ++ rest') :
    s = s' ∧ rest = rest' := by
  have hsign : s.negative = s'.negative := by
    rw [Bool.eq_iff_iff, ← s.head?_eq_minus_iff rest, ← s'.head?_eq_minus_iff rest', h]
  unfold bytes sign at h
  rw [hsign, List.append_assoc, List.append_assoc] at h
  obtain ⟨hdigits, hrest⟩ := append_inj_of_forall (fun _ => s.isDigitByte_of_mem)
    (fun _ => s'.isDigitByte_of_mem) hrest hrest' (List.append_cancel_left h)
  exact ⟨Spelling.ext hsign (map_ascii_inj s.isDigit s'.isDigit hdigits), hrest⟩

end Spelling

variable {n : Numeral} {w skip rest : Bytes} {i : Int}

/-! ### Reading -/

variable {c : Bytes}

/-- What comes before a number is dropped, and no byte of the number is. -/
theorem dropWhile_idle (hskip : ∀ b ∈ skip, starts b = false) (hc : ∀ b ∈ c.head?, starts b = true) :
    (skip ++ c).dropWhile (fun b => !starts b) = c :=
  dropWhile_front (fun b hb => by simp [hskip b hb]) fun b hb => by simp [hc b hb]

theorem parse_append_of_idle (hskip : ∀ b ∈ skip, starts b = false)
    (hc : ∀ b ∈ c.head?, starts b = true) : parse (skip ++ c) = read {} c := by
  rw [parse, dropWhile_idle hskip hc]

/-- There is no number where none begins. -/
theorem parse_of_idle (hskip : ∀ b ∈ skip, starts b = false) : parse skip = (none, []) := by
  have hnothing := parse_append_of_idle (c := []) hskip nofun
  rwa [List.append_nil] at hnothing

/-- A number ends at the first byte that is no digit. -/
theorem read_stop (hn : 0 < n.digits) (hrest : ∀ b ∈ rest.head?, isDigitByte b = false) :
    n.read rest = (n.result, rest) := by
  cases rest with
  | nil => rfl
  | cons b rest => rw [read, next_stop hn (hrest b rfl)]

theorem result_eq_some_iff :
    n.result = some i ↔ 0 < n.digits ∧ (if n.negative then -(n.value : Int) else n.value) = i ∧
      int32Min ≤ i ∧ i ≤ int32Max := by
  unfold result
  dsimp only
  generalize (if n.negative then -(n.value : Int) else n.value) = j
  constructor
  · intro h
    split at h
    · rename_i hj
      obtain rfl := Option.some.inj h
      exact ⟨hj.1, rfl, hj.2⟩
    · cases h
  · rintro ⟨hn, rfl, hj⟩
    exact if_pos ⟨hn, hj⟩

/-- **A number is read from each of its spellings**, if no other one comes before it and no digit comes
right after it. -/
theorem parse_spelling (s : Spelling) (hskip : ∀ b ∈ skip, starts b = false)
    (hrest : ∀ b ∈ rest.head?, isDigitByte b = false) (hmin : int32Min ≤ s.value)
    (hmax : s.value ≤ int32Max) : parse (skip ++ s.bytes ++ rest) = (some s.value, rest) := by
  have hpos : 0 < s.digits.length := List.length_pos_iff.2 s.digits_ne_nil
  have hmagnitude : s.magnitude ≤ accumulatorLimit := by
    unfold Spelling.value at hmin hmax
    unfold int32Min at hmin
    unfold int32Max at hmax
    unfold accumulatorLimit
    by_cases hs : s.negative = true
    · rw [if_pos hs] at hmin
      omega
    · rw [if_neg hs] at hmax
      omega
  have hsign : read {} (s.bytes ++ rest) =
      read { negative := s.negative } (s.digits.map ascii ++ rest) := by
    unfold Spelling.bytes Spelling.sign
    split
    · rename_i hs
      rw [hs]
      rfl
    · rename_i hs
      rw [Bool.eq_false_iff.2 hs, List.nil_append]
  rw [List.append_assoc, parse_append_of_idle hskip (s.head?_starts rest), hsign,
    read_digits (n := { negative := s.negative }) s.isDigit hmagnitude,
    read_stop (by simpa using hpos) hrest]
  refine congrArg (·, rest) (result_eq_some_iff.2 ⟨by simpa using hpos, rfl, hmin, hmax⟩)

/-- Once a number has a sign or a digit, it goes on for digits only. -/
theorem read_eq_some (hn : n.negative = true ∨ 0 < n.digits) (h : n.read w = (some i, rest)) :
    ∃ cs : List Char, (∀ c ∈ cs, c.isDigit = true) ∧ w = cs.map ascii ++ rest ∧
      (∀ b ∈ rest.head?, isDigitByte b = false) ∧
      ({ n with value := Nat.ofDigitChars 10 cs n.value, digits := n.digits + cs.length } :
        Numeral).result = some i := by
  have hsign (b : UInt8) : ¬ (b = ascii '-' ∧ n.digits = 0 ∧ !n.negative) := by
    rintro ⟨-, hdigits, hnegative⟩
    rcases hn with hn | hn
    · rw [hn] at hnegative
      cases hnegative
    · omega
  induction w generalizing n with
  | nil =>
    obtain ⟨hresult, rfl⟩ := Prod.mk.inj h
    exact ⟨[], nofun, rfl, nofun, by simpa using hresult⟩
  | cons b w ih =>
    rw [read] at h
    by_cases hb : isDigitByte b = true
    case neg =>
      have hstop : n.next b = .stop := by
        unfold next
        rw [if_neg (hsign b), if_neg hb]
      rw [hstop] at h
      obtain ⟨hresult, rfl⟩ := Prod.mk.inj h
      refine ⟨[], nofun, rfl, ?_, by simpa using hresult⟩
      rintro _ ⟨⟩
      exact Bool.eq_false_iff.2 hb
    case pos =>
      obtain ⟨c, hc, rfl⟩ := exists_ascii_of_isDigitByte hb
      by_cases hle : 10 * n.value + (c.toNat - 48) ≤ accumulatorLimit
      case neg =>
        have hoverflow : n.next (ascii c) = .overflow := by
          unfold next
          rw [if_neg (hsign _), if_pos hb, digitValue_ascii hc, if_neg]
          omega
        rw [hoverflow] at h
        cases h
      case pos =>
        rw [next_digit hc rfl hle] at h
        obtain ⟨cs, hcs, rfl, hrest, hresult⟩ := ih (.inr (Nat.succ_pos _)) h (by simp)
        refine ⟨c :: cs, List.forall_mem_cons.2 ⟨hc, hcs⟩, rfl, hrest, ?_⟩
        rw [Nat.ofDigitChars_cons, List.length_cons, Nat.add_comm cs.length, ← Nat.add_assoc]
        exact hresult

/-- **A number in its place**: its spelling, behind bytes that no number starts with. -/
@[ext]
structure Token where
  gap : Bytes
  number : Spelling
  idle : ∀ b ∈ gap, starts b = false

namespace Token

def bytes (t : Token) : Bytes := t.gap ++ t.number.bytes

end Token

/-- **Which bytes a number is read from**: those of a token, if no digit comes right after it and its
number fits into 32 bits. -/
theorem parse_eq_some_iff :
    parse w = (some i, rest) ↔ ∃ t : Token, w = t.bytes ++ rest ∧
      (∀ b ∈ rest.head?, isDigitByte b = false) ∧ t.number.value = i ∧ int32Min ≤ i ∧ i ≤ int32Max := by
  constructor
  · intro h
    have hidle : ∀ b ∈ w.takeWhile (fun b => !starts b), starts b = false := by
      intro b hb
      simpa using List.mem_takeWhile_imp hb
    -- what was read of a number with a sign or a digit is the rest of its spelling
    have spelled (negative : Bool) (cs : List Char) (hcs : ∀ c ∈ cs, c.isDigit = true)
        (hw : w.dropWhile (fun b => !starts b) =
          (if negative then [ascii '-'] else []) ++ cs.map ascii ++ rest)
        (hrest : ∀ b ∈ rest.head?, isDigitByte b = false)
        (hresult : ({ negative, value := Nat.ofDigitChars 10 cs 0, digits := cs.length } :
          Numeral).result = some i) :
        ∃ t : Token, w = t.bytes ++ rest ∧ (∀ b ∈ rest.head?, isDigitByte b = false) ∧
          t.number.value = i ∧ int32Min ≤ i ∧ i ≤ int32Max := by
      obtain ⟨hpos, hvalue, hrange⟩ := result_eq_some_iff.1 hresult
      have hsplit : w = w.takeWhile (fun b => !starts b) ++ w.dropWhile (fun b => !starts b) :=
        List.takeWhile_append_dropWhile.symm
      rw [hw, ← List.append_assoc] at hsplit
      exact ⟨⟨_, ⟨negative, cs, List.length_pos_iff.1 hpos, hcs⟩, hidle⟩, hsplit, hrest, hvalue, hrange⟩
    unfold parse at h
    cases hd : w.dropWhile fun b => !starts b with
    | nil =>
      rw [hd] at h
      cases h
    | cons b w' =>
      rw [hd] at h spelled
      have hb : starts b = true := by
        have := List.head?_dropWhile_not (fun b => !starts b) w
        rw [hd] at this
        simpa using this
      by_cases hminus : b = ascii '-'
      · subst hminus
        obtain ⟨cs, hcs, rfl, hrest, hresult⟩ :=
          read_eq_some (n := { negative := true }) (.inl rfl) h
        refine spelled true cs hcs rfl hrest ?_
        rwa [Nat.zero_add] at hresult
      · have hdigit : isDigitByte b = true := by simpa [starts, hminus] using hb
        obtain ⟨c, hc, rfl⟩ := exists_ascii_of_isDigitByte hdigit
        have hle : c.toNat - 48 ≤ accumulatorLimit := by
          have := toNat_of_isDigit hc
          unfold accumulatorLimit
          omega
        rw [read, next_digit hc rfl (by simpa using hle)] at h
        obtain ⟨cs, hcs, rfl, hrest, hresult⟩ := read_eq_some (.inr (Nat.succ_pos _)) h
        refine spelled false (c :: cs) (List.forall_mem_cons.2 ⟨hc, hcs⟩) rfl hrest ?_
        rw [Nat.ofDigitChars_cons, List.length_cons, Nat.add_comm cs.length]
        exact hresult
  · rintro ⟨t, rfl, hrest, rfl, hmin, hmax⟩
    exact parse_spelling t.number t.idle hrest hmin hmax

/-- **A number is read exactly if some token begins the bytes** that no digit comes right after, and its
number fits into 32 bits. -/
theorem fst_parse_eq_some_iff :
    (parse w).1 = some i ↔ ∃ (t : Token) (rest : Bytes), w = t.bytes ++ rest ∧
      (∀ b ∈ rest.head?, isDigitByte b = false) ∧ t.number.value = i ∧ int32Min ≤ i ∧ i ≤ int32Max := by
  constructor
  · intro h
    obtain ⟨t, ht⟩ := parse_eq_some_iff.1 (Prod.ext h rfl)
    exact ⟨t, _, ht⟩
  · rintro ⟨t, rest, ht⟩
    rw [parse_eq_some_iff.2 ⟨t, ht⟩]

/-! ### Rows of tokens -/

namespace Token

variable {t t' : Token} {ts ts' : List Token} {rest' : Bytes}

/-- **Where a token ends is told by the bytes alone**, and so is how it is spelled. -/
theorem append_inj (hrest : ∀ b ∈ rest.head?, isDigitByte b = false)
    (hrest' : ∀ b ∈ rest'.head?, isDigitByte b = false) (h : t.bytes ++ rest = t'.bytes ++ rest') :
    t = t' ∧ rest = rest' := by
  have idle (t : Token) : ∀ b ∈ t.gap, (!starts b) = true := fun b hb => by simp [t.idle b hb]
  have begins (t : Token) (rest : Bytes) :
      ∀ b ∈ (t.number.bytes ++ rest).head?, (!starts b) = false :=
    fun b hb => by simp [t.number.head?_starts rest b hb]
  unfold bytes at h
  rw [List.append_assoc, List.append_assoc] at h
  obtain ⟨hgap, h⟩ := append_inj_of_forall (idle t) (idle t') (begins t rest) (begins t' rest') h
  obtain ⟨hnumber, hrest⟩ := Spelling.append_inj hrest hrest' h
  exact ⟨Token.ext hgap hnumber, hrest⟩

theorem bytes_ne_nil (t : Token) : t.bytes ≠ [] := by
  obtain ⟨b, w, hw, -⟩ := t.number.exists_cons
  unfold bytes
  rw [hw]
  exact List.append_ne_nil_of_right_ne_nil _ (List.cons_ne_nil b w)

/-- There is a digit in a token. -/
theorem exists_isDigitByte (t : Token) : ∃ b ∈ t.bytes, isDigitByte b = true := by
  obtain ⟨c, cs, hcs⟩ := List.exists_cons_of_ne_nil t.number.digits_ne_nil
  have hmem : ascii c ∈ t.number.digits.map ascii := by
    rw [hcs]
    exact List.mem_cons_self
  exact ⟨ascii c, List.mem_append_right _ (List.mem_append_right _ hmem),
    t.number.isDigitByte_of_mem hmem⟩

/-- The bytes of a row of tokens. -/
def row (ts : List Token) : Bytes := ts.flatMap bytes

theorem row_cons (t : Token) (ts : List Token) : row (t :: ts) = t.bytes ++ row ts := rfl

/-- **No token of a row goes on where the one before it ends**, and neither does what comes after
them. -/
def Parted : List Token → Bytes → Prop
  | [], _ => True
  | _ :: ts, rest => (∀ b ∈ (row ts ++ rest).head?, isDigitByte b = false) ∧ Parted ts rest

/-- Of what comes after a row the first byte counts. -/
theorem parted_cons_iff {b : UInt8} (rest' : Bytes) :
    Parted ts (b :: rest) ↔ Parted ts (b :: rest') := by
  induction ts with
  | nil => exact Iff.rfl
  | cons t ts ih =>
    have hhead : (row ts ++ b :: rest).head? = (row ts ++ b :: rest').head? := by
      rw [List.head?_append, List.head?_append]
      rfl
    unfold Parted
    rw [hhead, ih]

/-- **Bytes are cut into a row of tokens in one way only**, if it is known how many there are. -/
theorem row_inj (hts : Parted ts rest) (hts' : Parted ts' rest') (hlen : ts.length = ts'.length)
    (h : row ts ++ rest = row ts' ++ rest') : ts = ts' ∧ rest = rest' := by
  induction ts generalizing ts' with
  | nil =>
    obtain rfl := List.length_eq_zero_iff.1 hlen.symm
    exact ⟨rfl, h⟩
  | cons t ts ih =>
    cases ts' with
    | nil => cases hlen
    | cons t' ts' =>
      rw [row_cons, row_cons, List.append_assoc, List.append_assoc] at h
      obtain ⟨rfl, htail⟩ := append_inj hts.1 hts'.1 h
      obtain ⟨rfl, rfl⟩ := ih hts.2 hts'.2 (Nat.succ.inj hlen) htail
      exact ⟨rfl, rfl⟩

end Token

end Numeral

end EspWifi
