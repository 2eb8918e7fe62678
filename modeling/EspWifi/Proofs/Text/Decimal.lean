import EspWifi.Bytes

/-!
# Numbers as text

A number goes over the wire in decimal, as the ASCII digits of its text.

* `utf8_append`, `utf8_ofList`: text piece by piece, and character by character where it is ASCII.
* `decimal_eq`: the bytes of a number are its digits.
* `isDigitByte_ascii`, `digitValue_ascii`: what a digit looks like as a byte.
-/

namespace EspWifi

theorem utf8_append (s t : String) : utf8 (s ++ t) = utf8 s ++ utf8 t := by
  simp [utf8]

/-- **ASCII text has one byte for each character.** -/
theorem utf8_ofList {cs : List Char} (h : ∀ c ∈ cs, c.toNat < 128) :
    utf8 (String.ofList cs) = cs.map ascii := by
  unfold utf8
  rw [String.toUTF8_eq_toByteArray, String.toByteArray_ofList]
  induction cs with
  | nil => simp
  | cons c cs ih =>
    have hc : c.toNat < 128 := h c List.mem_cons_self
    have hsize : c.utf8Size = 1 := by
      rw [Char.utf8Size_eq_one_iff, UInt32.le_iff_toNat_le]
      exact Nat.le_of_lt_succ hc
    rw [List.utf8Encode_cons, List.utf8Encode_singleton, String.utf8EncodeChar_eq_singleton hsize,
      ByteArray.data_append, Array.toList_append, ih fun x hx => h x (List.mem_cons_of_mem _ hx)]
    have hbyte : c.val.toUInt8 = ascii c := rfl
    simp [hbyte]

/-- The digits of a number. -/
def decimalDigits (n : Nat) : List Char := Nat.toDigits 10 n

theorem toList_toString (n : Nat) : (toString n).toList = decimalDigits n := by
  rw [Nat.toString_eq_ofList_toDigits, String.toList_ofList]
  rfl

theorem toList_toString_byte (n : UInt8) : (toString n).toList = decimalDigits n.toNat :=
  toList_toString n.toNat

theorem toList_toString_word (n : UInt16) : (toString n).toList = decimalDigits n.toNat :=
  toList_toString n.toNat

theorem isDigit_of_mem_decimalDigits {n : Nat} {c : Char} (h : c ∈ decimalDigits n) :
    c.isDigit = true :=
  Nat.isDigit_of_mem_toDigits (by decide) (by decide) h

theorem decimalDigits_ne_nil (n : Nat) : decimalDigits n ≠ [] := Nat.toDigits_ne_nil

theorem toNat_of_isDigit {c : Char} (h : c.isDigit = true) : 48 ≤ c.toNat ∧ c.toNat ≤ 57 := by
  simp only [Char.isDigit, Bool.and_eq_true, decide_eq_true_eq, ge_iff_le] at h
  exact ⟨UInt32.le_iff_toNat_le.1 h.1, UInt32.le_iff_toNat_le.1 h.2⟩

/-- A number as it goes over the wire. -/
def decimal (n : Nat) : Bytes := utf8 (toString n)

/-- **A number goes over the wire digit by digit.** -/
theorem decimal_eq (n : Nat) : decimal n = (decimalDigits n).map ascii := by
  unfold decimal
  rw [Nat.toString_eq_ofList_toDigits]
  refine utf8_ofList fun c hc => ?_
  have := toNat_of_isDigit (isDigit_of_mem_decimalDigits hc)
  omega

theorem toNat_ascii {c : Char} (h : c.toNat < 256) : (ascii c).toNat = c.toNat := by
  rw [ascii, Nat.toUInt8, UInt8.toNat_ofNat']
  exact Nat.mod_eq_of_lt h

theorem isDigitByte_iff {b : UInt8} : isDigitByte b = true ↔ 48 ≤ b.toNat ∧ b.toNat ≤ 57 := by
  simp only [isDigitByte, Bool.and_eq_true, decide_eq_true_eq, UInt8.le_iff_toNat_le]
  rfl

/-- A digit is a digit on the wire, too. -/
theorem isDigitByte_ascii {c : Char} (h : c.isDigit = true) : isDigitByte (ascii c) = true := by
  have hc := toNat_of_isDigit h
  rw [isDigitByte_iff, toNat_ascii (by omega)]
  exact hc

/-- The value of a digit. -/
theorem digitValue_ascii {c : Char} (h : c.isDigit = true) :
    (ascii c - ascii '0').toNat = c.toNat - 48 := by
  have hc := toNat_of_isDigit h
  have h0 : (ascii '0').toNat = 48 := rfl
  have ha := toNat_ascii (c := c) (by omega)
  rw [UInt8.toNat_sub_of_le _ _ (by rw [UInt8.le_iff_toNat_le]; omega), ha, h0]

end EspWifi
