/-
# BibAudit.Proofs.Text.Digits — numbers printed and read again.

A printed number is read again as it was, and it is the shortest numeral of its value: all others have
zeros in front of it.
-/
import BibAudit.Text.Basic
import Mathlib.Data.List.Induction

namespace BibAudit.Text

theorem toNat_of_isDigit {c : Char} (h : c.isDigit = true) : 48 ≤ c.toNat ∧ c.toNat ≤ 57 := by
  have hclass : c.val ≥ '0'.val ∧ c.val ≤ '9'.val := by simpa [Char.isDigit] using h
  exact ⟨UInt32.le_iff_toNat_le.mp hclass.1, UInt32.le_iff_toNat_le.mp hclass.2⟩

theorem decimalDigit?_eq_some {c : Char} {d : Nat} :
    decimalDigit? c = some d ↔ c.isDigit = true ∧ c.toNat - 48 = d := by
  unfold decimalDigit?
  split
  · next h => simp [h]
  · next h => simp [h]

theorem decimalDigit?_lt {c : Char} {d : Nat} (h : decimalDigit? c = some d) : d < 10 := by
  obtain ⟨hdigit, rfl⟩ := decimalDigit?_eq_some.mp h
  have hbounds := toNat_of_isDigit hdigit
  omega

theorem eq_of_decimalDigit? {a b : Char} {d : Nat} (ha : decimalDigit? a = some d)
    (hb : decimalDigit? b = some d) : a = b := by
  obtain ⟨hdigit, hvalue⟩ := decimalDigit?_eq_some.mp ha
  obtain ⟨hdigit', hvalue'⟩ := decimalDigit?_eq_some.mp hb
  have hbounds := toNat_of_isDigit hdigit
  have hbounds' := toNat_of_isDigit hdigit'
  apply Char.toNat_inj.mp
  omega

/-- The character of a digit has its value. -/
theorem decimalDigit?_digitChar {d : Nat} (h : d < 10) : decimalDigit? (Nat.digitChar d) = some d := by
  have hall : ∀ d < 10, decimalDigit? (Nat.digitChar d) = some d := by decide
  exact hall d h

/-- A printed number is a numeral. -/
theorem isNumeral_toString (n : Nat) : isNumeral (toString n).toList = true := by
  have hdigits : ∀ c ∈ Nat.toDigits 10 n, c.isDigit = true := by
    intro c hc
    exact Nat.isDigit_of_mem_toDigits (by omega) (by omega) hc
  rw [Nat.toString_eq_ofList_toDigits, String.toList_ofList, isNumeral, List.all_eq_true.mpr hdigits]
  simp [Nat.toDigits_ne_nil]

/-- Reading a printed number gives it back. -/
theorem decimalValue_toString (n : Nat) : decimalValue (toString n).toList = n := by
  rw [Nat.toString_eq_ofList_toDigits, String.toList_ofList, decimalValue,
    ← Nat.ofDigitChars_eq_foldl, Nat.ofDigitChars_ten_toDigits]

/-- A printed number has a zero in front only if it is zero; the induction is on its digits. -/
theorem head_toString {n : Nat} (h : 0 < n) : (toString n).toList.head? ≠ some '0' := by
  rw [Nat.toString_eq_ofList_toDigits, String.toList_ofList]
  induction n using Nat.strongRecOn with
  | ind n ih =>
      by_cases hsmall : n < 10
      · rw [Nat.toDigits_of_lt_base hsmall]
        have hdigit : ∀ d < 10, 0 < d → [Nat.digitChar d].head? ≠ some '0' := by decide
        exact hdigit n hsmall h
      · have hhead := ih (n / 10) (by omega) (by omega)
        obtain ⟨c, cs, hcs⟩ := List.exists_cons_of_ne_nil (l := Nat.toDigits 10 (n / 10))
          Nat.toDigits_ne_nil
        rw [Nat.toDigits_of_base_le (by omega) (by omega), hcs]
        rw [hcs] at hhead
        exact hhead

/-! ## Numerals -/

theorem decimalValue_concat (ds : List Char) (d : Char) :
    decimalValue (ds ++ [d]) = 10 * decimalValue ds + (d.toNat - 48) := by
  rw [decimalValue, List.foldl_append]
  rfl

/-- Zeros in front add nothing. -/
theorem decimalValue_zeros (zeros : Nat) (ds : List Char) :
    decimalValue (List.replicate zeros '0' ++ ds) = decimalValue ds := by
  induction zeros with
  | zero => rfl
  | succ zeros ih => exact ih

theorem digitChar_of_isDigit {d : Char} (h : d.isDigit = true) :
    Nat.digitChar (d.toNat - 48) = d := by
  have hd : decimalDigit? d = some (d.toNat - 48) := decimalDigit?_eq_some.mpr ⟨h, rfl⟩
  exact eq_of_decimalDigit? (decimalDigit?_digitChar (decimalDigit?_lt hd)) hd

/-- A digit behind a printed number other than zero prints the number of both. -/
theorem toString_concat {m : Nat} {d : Char} (hm : m ≠ 0) (hd : d.isDigit = true) :
    (toString (10 * m + (d.toNat - 48))).toList = (toString m).toList ++ [d] := by
  have hbounds := toNat_of_isDigit hd
  have hdiv : (10 * m + (d.toNat - 48)) / 10 = m := by omega
  have hmod : (10 * m + (d.toNat - 48)) % 10 = d.toNat - 48 := by omega
  rw [Nat.toString_eq_ofList_toDigits, Nat.toString_eq_ofList_toDigits, String.toList_ofList,
    String.toList_ofList, Nat.toDigits_of_base_le (by omega) (by omega), hdiv, hmod,
    digitChar_of_isDigit hd]

theorem toString_digit {d : Char} (hd : d.isDigit = true) :
    (toString (d.toNat - 48)).toList = [d] := by
  have hbounds := toNat_of_isDigit hd
  rw [Nat.toString_eq_ofList_toDigits, String.toList_ofList, Nat.toDigits_of_lt_base (by omega),
    digitChar_of_isDigit hd]

/-- The numerals of a number are the printed number, with zeros in front of it. -/
theorem isNumeral_and_value_iff {ds : List Char} {n : Nat} :
    isNumeral ds = true ∧ decimalValue ds = n ↔
      ∃ zeros, ds = List.replicate zeros '0' ++ (toString n).toList := by
  constructor
  · rintro ⟨hnumeral, rfl⟩
    rw [isNumeral, Bool.and_eq_true, List.all_eq_true] at hnumeral
    obtain ⟨hne, hdigits⟩ := hnumeral
    induction ds using List.reverseRecOn with
    | nil => cases hne
    | append_singleton front d ih =>
        have hd : d.isDigit = true := hdigits d (by simp)
        rw [decimalValue_concat]
        by_cases hfront : front = []
        · subst hfront
          refine ⟨0, ?_⟩
          show [d] = (toString (10 * 0 + (d.toNat - 48))).toList
          rw [Nat.mul_zero, Nat.zero_add, toString_digit hd]
        · obtain ⟨zeros, hzeros⟩ := ih (by simpa using hfront)
            fun c hc => hdigits c (List.mem_append_left [d] hc)
          by_cases hm : decimalValue front = 0
          · -- The front is zeros only, and the digit is the number.
            rw [hm] at hzeros ⊢
            refine ⟨zeros + 1, ?_⟩
            rw [Nat.mul_zero, Nat.zero_add, toString_digit hd, hzeros, List.replicate_succ']
            rfl
          · refine ⟨zeros, ?_⟩
            rw [toString_concat hm hd, ← List.append_assoc, ← hzeros]
  · rintro ⟨zeros, rfl⟩
    have hprinted := isNumeral_toString n
    rw [decimalValue_zeros, decimalValue_toString]
    refine ⟨?_, rfl⟩
    rw [isNumeral, Bool.and_eq_true] at hprinted ⊢
    refine ⟨by simp, ?_⟩
    rw [List.all_append, hprinted.2, Bool.and_true, List.all_replicate]
    simp

end BibAudit.Text
