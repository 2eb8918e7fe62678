import EspWifi.Modem.Address
import EspWifi.Proofs.Text.Decimal
import Mathlib.Data.Nat.Digits.Defs

/-!
# Addresses as text

An address is read from the text that stands for it: four numbers with dots between them, or six octets in
hex, in either case, with colons between them.

* `Printable`: the printable characters of ASCII.
* `splitAt_eq_splitOn`: the pieces between separators.
* `readDigits_ten`, `readUnsigned_eq`: a row of digits as a number.
* `Ipv4.ofText?_text`: **an IPv4 address is read from its text.**
* `Mac.print`, `Mac.ofText?_print`: **so is a MAC address**, whose octets come out in reversed order.
-/

namespace EspWifi

/-! ### Characters -/

/-- A printable character of ASCII. -/
def Printable (c : Char) : Prop := 32 ≤ c.toNat ∧ c.toNat < 127

instance : DecidablePred Printable := fun c => inferInstanceAs (Decidable (32 ≤ c.toNat ∧ c.toNat < 127))

namespace Printable

variable {c : Char}

theorem lt (h : Printable c) : c.toNat < 128 := h.2.trans (Nat.lt_succ_self 127)

/-- No line ends with a printable character. -/
theorem ne_of_lt (h : Printable c) {x : Char} (hx : x.toNat < 32) : c ≠ x := by
  rintro rfl
  exact absurd h.1 (Nat.not_le.2 hx)

theorem of_all {cs : List Char} (h : cs.all (fun c => decide (Printable c)) = true) :
    ∀ c ∈ cs, Printable c := fun c hc => of_decide_eq_true (List.all_eq_true.1 h c hc)

theorem of_isDigit (h : c.isDigit = true) : Printable c := by
  have hrange := toNat_of_isDigit h
  exact ⟨by omega, by omega⟩

end Printable

/-! ### Pieces and digits -/

theorem splitAt_eq_splitOn (sep : Char) (cs : List Char) : splitAt sep cs = cs.splitOn sep := by
  induction cs with
  | nil => rfl
  | cons c cs ih =>
    rw [splitAt, List.splitOn_cons_eq_if_modifyHead, ih]
    by_cases hc : c = sep
    · simp [hc]
    · rw [if_neg hc, if_neg (by simpa using hc)]
      cases hpieces : cs.splitOn sep with
      | nil => exact absurd hpieces (List.splitOn_ne_nil sep cs)
      | cons piece pieces => rfl

/-- **Pieces without the separator are told apart** by the separators between them. -/
theorem splitAt_intercalate {sep : Char} {pieces : List (List Char)} (h : ∀ p ∈ pieces, sep ∉ p)
    (hne : pieces ≠ []) : splitAt sep ([sep].intercalate pieces) = pieces := by
  rw [splitAt_eq_splitOn]
  exact List.splitOn_intercalate sep h hne

/-- What is between two separators is part of a piece. -/
theorem mem_intercalate {sep c : Char} {pieces : List (List Char)}
    (h : c ∈ [sep].intercalate pieces) : c = sep ∨ ∃ p ∈ pieces, c ∈ p := by
  induction pieces with
  | nil => cases h
  | cons p pieces ih =>
    cases pieces with
    | nil => exact .inr ⟨p, List.mem_cons_self, by simpa using h⟩
    | cons q pieces =>
      rw [List.intercalate_cons_cons, List.append_assoc, List.mem_append, List.mem_append,
        List.mem_singleton] at h
      rcases h with hp | hsep | hlater
      · exact .inr ⟨p, List.mem_cons_self, hp⟩
      · exact .inl hsep
      · rcases ih hlater with hsep | ⟨p', hp', hc⟩
        · exact .inl hsep
        · exact .inr ⟨p', List.mem_cons_of_mem p hp', hc⟩

theorem le_of_isDigit {c : Char} (hc : c.isDigit = true) : '0' ≤ c ∧ c ≤ '9' := by
  simp only [Char.isDigit, Bool.and_eq_true, decide_eq_true_eq, ge_iff_le] at hc
  exact hc

theorem digitValue?_ten {c : Char} (hc : c.isDigit = true) : digitValue? 10 c = some (c.toNat - 48) := by
  have hrange := toNat_of_isDigit hc
  have hvalue : c.toNat - '0'.toNat < 10 := by
    show c.toNat - 48 < 10
    omega
  unfold digitValue?
  rw [if_pos (le_of_isDigit hc)]
  exact Option.filter_some_pos (decide_eq_true hvalue)

/-- **A row of decimal digits is read as a number.** -/
theorem readDigits_ten {cs : List Char} (hcs : ∀ c ∈ cs, c.isDigit = true) (n : Nat) :
    readDigits 10 n cs = some (Nat.ofDigitChars 10 cs n) := by
  induction cs generalizing n with
  | nil => rfl
  | cons c cs ih =>
    rw [List.forall_mem_cons] at hcs
    rw [readDigits, digitValue?_ten hcs.1, Nat.ofDigitChars_cons]
    dsimp only
    rw [ih hcs.2, Nat.mul_comm]
    rfl

/-- **A row of digits is read as their number**, if that is not above the limit. -/
theorem readUnsigned_eq {radix limit n : Nat} {cs : List Char} (hne : cs ≠ []) (hplus : '+' ∉ cs)
    (hread : readDigits radix 0 cs = some n) (hn : n ≤ limit) : readUnsigned radix limit cs = some n := by
  have hunsigned : dropPlus cs = cs := by
    unfold dropPlus
    split
    · exact absurd List.mem_cons_self hplus
    · rfl
  have hfilter : (readDigits radix 0 cs).filter (· ≤ limit) = some n := by
    rw [hread]
    exact Option.filter_some_pos (decide_eq_true hn)
  unfold readUnsigned
  rw [hunsigned, ← hfilter]
  cases cs with
  | nil => exact absurd rfl hne
  | cons c cs => rfl

/-- What is no digit is no part of a number. -/
theorem readDigits_eq_none {radix : Nat} {c : Char} {cs : List Char} (hc : c ∈ cs)
    (hnone : digitValue? radix c = none) (n : Nat) : readDigits radix n cs = none := by
  induction cs generalizing n with
  | nil => cases hc
  | cons c' cs ih =>
    rw [readDigits]
    cases hvalue : digitValue? radix c' with
    | none => rfl
    | some v =>
      rcases List.mem_cons.1 hc with rfl | hlater
      · cases hnone.symm.trans hvalue
      · exact ih hlater _

theorem readDigits_decimal (n : Nat) : readDigits 10 0 (decimalDigits n) = some n := by
  rw [readDigits_ten fun _ => isDigit_of_mem_decimalDigits]
  exact congrArg some Nat.ofDigitChars_ten_toDigits

/-! ### IPv4 addresses -/

namespace Ipv4

/-- **An octet is read from its digits.** -/
theorem octet?_decimal (n : UInt8) : octet? (decimalDigits n.toNat) = some n := by
  have hlt : n.toNat < 256 := n.toNat_lt
  have hne : (decimalDigits n.toNat).isEmpty = false :=
    List.isEmpty_eq_false_iff.2 (decimalDigits_ne_nil _)
  have hlength : (decimalDigits n.toNat).length ≤ 3 :=
    Nat.toDigits_length 10 n.toNat 3 (by decide) (by omega)
  -- an octet with a leading zero is not accepted, and none is printed
  have hzero : ∀ n : Fin 256, ¬ (1 < (decimalDigits n).length ∧ (decimalDigits n).head? = some '0') := by
    decide +kernel
  have hfilter : (some n.toNat).filter (· ≤ 255) = some n.toNat :=
    Option.filter_some_pos (decide_eq_true (by omega))
  unfold octet?
  rw [if_neg, readDigits_decimal, hfilter, Option.map_some]
  · exact congrArg some (UInt8.ofNat_toNat)
  · rintro (hnil | hlong | hleading)
    · rw [hne] at hnil
      cases hnil
    · omega
    · exact hzero ⟨n.toNat, hlt⟩ hleading

/-- The four numbers of an address. -/
def numbers (ip : Ipv4) : List (List Char) := [ip.a, ip.b, ip.c, ip.d].map (decimalDigits ·.toNat)

theorem toList_text (ip : Ipv4) : ip.text.toList = ['.'].intercalate ip.numbers := by
  simp [text, numbers, toString, decimalDigits]

theorem isDigit_of_mem_numbers {ip : Ipv4} {p : List Char} (hp : p ∈ ip.numbers) :
    ∀ c ∈ p, c.isDigit = true := by
  obtain ⟨n, -, rfl⟩ := List.mem_map.1 hp
  exact fun c => isDigit_of_mem_decimalDigits

/-- **An IPv4 address is read from its text.** -/
theorem ofText?_text (ip : Ipv4) : ofText? ip.text = some ip := by
  have hdots : ∀ p ∈ ip.numbers, '.' ∉ p := fun p hp hdot =>
    absurd (isDigit_of_mem_numbers hp '.' hdot) (by decide)
  unfold ofText?
  rw [toList_text, splitAt_intercalate hdots (List.cons_ne_nil _ _)]
  simp [numbers, octet?_decimal]

/-- The text of an address is made of digits and dots. -/
theorem isDigit_or_dot_of_mem {ip : Ipv4} {c : Char} (hc : c ∈ ip.text.toList) :
    c.isDigit = true ∨ c = '.' := by
  rw [toList_text] at hc
  rcases mem_intercalate hc with hdot | ⟨p, hp, hmem⟩
  · exact .inr hdot
  · exact .inl (isDigit_of_mem_numbers hp c hmem)

theorem printable_of_mem {ip : Ipv4} {c : Char} (hc : c ∈ ip.text.toList) : Printable c := by
  rcases isDigit_or_dot_of_mem hc with hdigit | rfl
  · exact .of_isDigit hdigit
  · decide

theorem length_text_le (ip : Ipv4) : ip.text.toList.length ≤ 15 := by
  have hlength (n : UInt8) : (decimalDigits n.toNat).length ≤ 3 :=
    Nat.toDigits_length 10 n.toNat 3 (by decide) (Nat.lt_of_lt_of_le n.toNat_lt (by decide))
  rw [toList_text]
  have ha := hlength ip.a
  have hb := hlength ip.b
  have hc := hlength ip.c
  have hd := hlength ip.d
  simp [numbers]
  omega

end Ipv4

/-! ### MAC addresses -/

/-- A hex digit, in either case. -/
def hexDigit (upper : Bool) (n : Nat) : Char :=
  if upper then (Nat.digitChar n).toUpper else Nat.digitChar n

/-- An octet in hex: two digits, each of them in either case. -/
def hexOctet (upper : Bool × Bool) (b : UInt8) : List Char :=
  [hexDigit upper.1 (b.toNat / 16), hexDigit upper.2 (b.toNat % 16)]

theorem digitValue?_hexDigit : ∀ (upper : Bool) (n : Fin 16),
    digitValue? 16 (hexDigit upper n) = some n := by
  decide

/-- Characters that no octet holds. -/
def besideOctets : List Char := ['+', ':', ',', '-', '"']

theorem hexDigit_plain : ∀ (upper : Bool) (n : Fin 16),
    hexDigit upper n ∉ besideOctets ∧ Printable (hexDigit upper n) := by
  decide

theorem of_mem_hexOctet {upper : Bool × Bool} {b : UInt8} {c : Char} (hc : c ∈ hexOctet upper b) :
    c ∉ besideOctets ∧ Printable c := by
  have hlt : b.toNat < 256 := b.toNat_lt
  simp only [hexOctet, List.mem_cons, List.not_mem_nil, or_false] at hc
  rcases hc with rfl | rfl
  · exact hexDigit_plain upper.1 ⟨b.toNat / 16, by omega⟩
  · exact hexDigit_plain upper.2 ⟨b.toNat % 16, by omega⟩

namespace Mac

/-- **An octet is read from its two digits.** -/
theorem octet?_hexOctet (upper : Bool × Bool) (b : UInt8) : octet? (hexOctet upper b) = some b := by
  have hlt : b.toNat < 256 := b.toNat_lt
  have hhigh : digitValue? 16 (hexDigit upper.1 (b.toNat / 16)) = some (b.toNat / 16) :=
    digitValue?_hexDigit upper.1 ⟨b.toNat / 16, by omega⟩
  have hlow : digitValue? 16 (hexDigit upper.2 (b.toNat % 16)) = some (b.toNat % 16) :=
    digitValue?_hexDigit upper.2 ⟨b.toNat % 16, by omega⟩
  have hplus : '+' ∉ hexOctet upper b := fun hc => (of_mem_hexOctet hc).1 (by decide)
  have hdigits : readDigits 16 0 (hexOctet upper b) = some b.toNat := by
    simp only [hexOctet, readDigits, hhigh, hlow]
    refine congrArg some ?_
    omega
  have hread : readUnsigned 16 255 (hexOctet upper b) = some b.toNat :=
    readUnsigned_eq (List.cons_ne_nil _ _) hplus hdigits (by omega)
  rw [octet?, hread, Option.map_some]
  exact congrArg some UInt8.ofNat_toNat

/-- **Six octets as the module prints them**, with colons between them. -/
def print (octets : Vector UInt8 6) (upper : Fin 6 → Bool × Bool) : List Char :=
  [':'].intercalate (List.ofFn fun i => hexOctet (upper i) octets[i])

/-- **A MAC address is read from what is printed of it.** The octets come out in reversed order. -/
theorem ofText?_print (octets : Vector UInt8 6) (upper : Fin 6 → Bool × Bool) :
    ofText? (String.ofList (print octets upper)) = some ⟨octets.reverse⟩ := by
  have hcolons : ∀ p ∈ List.ofFn fun i => hexOctet (upper i) octets[i], ':' ∉ p := by
    intro p hp
    obtain ⟨i, rfl⟩ := List.mem_ofFn.1 hp
    exact fun hc => (of_mem_hexOctet hc).1 (by decide)
  have hreversed : octets.reverse =
      #v[octets[5], octets[4], octets[3], octets[2], octets[1], octets[0]] := by
    ext i hi
    rw [Vector.getElem_reverse]
    rcases i with _ | _ | _ | _ | _ | _ | i
    all_goals first | rfl | omega
  unfold ofText? print
  rw [String.toList_ofList, splitAt_intercalate hcolons (by simp), hreversed]
  simp [List.ofFn_succ, octet?_hexOctet]

/-- **What is read as a MAC address** holds nothing but hex digits, colons and plus signs. -/
theorem ofText?_eq_none {s : String} {c : Char} (hc : c ∈ s.toList) (hcolon : c ≠ ':') (hplus : c ≠ '+')
    (hnone : digitValue? 16 c = none) : ofText? s = none := by
  have hoctet {p : List Char} (hp : c ∈ p) : octet? p = none := by
    have hmem : c ∈ dropPlus p := by
      unfold dropPlus
      split
      · exact (List.mem_cons.1 hp).resolve_left hplus
      · exact hp
    have hread : readUnsigned 16 255 p = none := by
      unfold readUnsigned
      split
      · rfl
      · rw [readDigits_eq_none hmem hnone]
        rfl
    rw [octet?, hread]
    rfl
  unfold ofText?
  split
  case h_2 => rfl
  case h_1 a b c' d e f hpieces =>
    have hjoined : [':'].intercalate [a, b, c', d, e, f] = s.toList := by
      rw [← hpieces, splitAt_eq_splitOn, List.intercalate_splitOn]
    obtain ⟨p, hp, hcp⟩ : ∃ p ∈ [a, b, c', d, e, f], c ∈ p :=
      (mem_intercalate (hjoined ▸ hc)).resolve_left hcolon
    -- the character is in one of the six pieces, and this one is not an octet
    simp only [List.mem_cons, List.not_mem_nil, or_false] at hp
    have hbad := hoctet hcp
    rcases hp with rfl | rfl | rfl | rfl | rfl | rfl
    all_goals simp [hbad]

/-- An address is made of octets and colons. -/
theorem of_mem_print {octets : Vector UInt8 6} {upper : Fin 6 → Bool × Bool} {c : Char}
    (hc : c ∈ print octets upper) : c = ':' ∨ c ∉ besideOctets ∧ Printable c := by
  rcases mem_intercalate hc with hcolon | ⟨p, hp, hmem⟩
  · exact .inl hcolon
  · obtain ⟨i, rfl⟩ := List.mem_ofFn.1 hp
    exact .inr (of_mem_hexOctet hmem)

theorem printable_of_mem {octets : Vector UInt8 6} {upper : Fin 6 → Bool × Bool} {c : Char}
    (hc : c ∈ print octets upper) : Printable c := by
  rcases of_mem_print hc with rfl | ⟨-, hprintable⟩
  · decide
  · exact hprintable

theorem not_mem_print {octets : Vector UInt8 6} {upper : Fin 6 → Bool × Bool} {c : Char}
    (hbeside : c ∈ besideOctets) (hcolon : c ≠ ':') : c ∉ print octets upper := fun hc =>
  ((of_mem_print hc).resolve_left hcolon).1 hbeside

theorem length_print (octets : Vector UInt8 6) (upper : Fin 6 → Bool × Bool) :
    (print octets upper).length = 17 := by
  simp [print, hexOctet]

end Mac

end EspWifi
