/-
# BibAudit.Proofs.Timestamp — written timestamps are read again.

Every part is written in a fixed number of digits, so it is read without looking at what follows.  The
fraction alone is of any length: its zeros at the end are left out, and reading puts them back.
-/
import BibAudit.Proofs.Text.Trim
import BibAudit.Timestamp
import Mathlib.Algebra.Group.Nat.Defs
import Mathlib.Data.List.TakeWhile

namespace BibAudit.Timestamp

variable {n width : Nat} {rest : List Char}

/-! ## Numbers of a fixed width -/

theorem isDigit_lastDigit (n : Nat) : (Nat.digitChar (n % 10)).isDigit = true := by
  rw [Nat.isDigit_digitChar]
  exact decide_eq_true (Nat.mod_lt n (by decide))

theorem value_lastDigit (n : Nat) : (Nat.digitChar (n % 10)).toNat - '0'.toNat = n % 10 :=
  Nat.toNat_digitChar_sub_48_of_lt_ten (Nat.mod_lt n (by decide))

theorem div_ten_lt (h : n < 10 ^ (width + 1)) : n / 10 < 10 ^ width :=
  Nat.div_lt_of_lt_mul (by rwa [Nat.pow_succ'] at h)

theorem isDigit_padded (width n : Nat) : ∀ c ∈ padded width n, c.isDigit = true := by
  induction width generalizing n with
  | zero => simp [padded]
  | succ width ih =>
      intro c hc
      rcases List.mem_append.mp hc with hc | hc
      · exact ih (n / 10) c hc
      · obtain rfl := List.mem_singleton.mp hc
        exact isDigit_lastDigit n

theorem length_padded (width n : Nat) : (padded width n).length = width := by
  induction width generalizing n with
  | zero => rfl
  | succ width ih => rw [padded, List.length_append, ih, List.length_singleton]

/-- The last digit of a number is read after all others. -/
theorem digitsOnto_succ (acc width : Nat) (cs : List Char) :
    digitsOnto acc (width + 1) cs =
      (digitsOnto acc width cs).bind fun (m, rest) => digitsOnto m 1 rest := by
  induction width generalizing acc cs with
  | zero => rfl
  | succ width ih =>
      cases cs with
      | nil => rfl
      | cons c rest =>
          rw [digitsOnto, digitsOnto]
          split
          · exact ih _ rest
          · rfl

/-- The digits of a number go onto those that were read before; the induction is on how many they
are. -/
theorem digitsOnto_padded (acc : Nat) (h : n < 10 ^ width) :
    digitsOnto acc width (padded width n ++ rest) = some (acc * 10 ^ width + n, rest) := by
  induction width generalizing n rest with
  | zero =>
      obtain rfl : n = 0 := by simpa using h
      simp [digitsOnto, padded]
  | succ width ih =>
      have hsum : 10 * (acc * 10 ^ width + n / 10) + n % 10 = acc * 10 ^ (width + 1) + n := by
        rw [Nat.pow_succ, ← Nat.mul_assoc]
        omega
      have hlast : digitsOnto (acc * 10 ^ width + n / 10) 1 (Nat.digitChar (n % 10) :: rest) =
          some (acc * 10 ^ (width + 1) + n, rest) := by
        rw [digitsOnto, if_pos (isDigit_lastDigit n), value_lastDigit, digitsOnto, hsum]
      rw [padded, List.append_assoc, List.singleton_append, digitsOnto_succ, ih (div_ten_lt h),
        Option.bind_some]
      exact hlast

/-- A number of a fixed width is read again, whatever follows it. -/
theorem digits_padded (width : Nat) (h : n < 10 ^ width) (rest : List Char) :
    digits width (padded width n ++ rest) = some (n, rest) := by
  rw [digits, digitsOnto_padded 0 h, Nat.zero_mul, Nat.zero_add]

theorem decimalValue_padded (h : n < 10 ^ width) : Text.decimalValue (padded width n) = n := by
  induction width generalizing n with
  | zero =>
      obtain rfl : n = 0 := by simpa using h
      rfl
  | succ width ih =>
      have hrest := ih (div_ten_lt h)
      rw [Text.decimalValue] at hrest ⊢
      rw [padded, List.foldl_append, hrest, List.foldl_cons, List.foldl_nil, value_lastDigit,
        Nat.div_add_mod]

/-! ## The fraction of a second -/

/-- What is dropped at the end are zeros. -/
theorem dropEndWhile_zeros (cs : List Char) :
    ∃ k, cs = Text.dropEndWhile (· == '0') cs ++ List.replicate k '0' := by
  refine ⟨(cs.reverse.takeWhile (· == '0')).length, ?_⟩
  have hzeros : cs.reverse.takeWhile (· == '0') =
      List.replicate (cs.reverse.takeWhile (· == '0')).length '0' := by
    refine List.eq_replicate_iff.mpr ⟨rfl, fun c hc => ?_⟩
    have hzero : (c == '0') = true := List.mem_takeWhile_imp (p := (· == '0')) hc
    exact beq_iff_eq.mp hzero
  calc cs = (cs.reverse.takeWhile (· == '0') ++ cs.reverse.dropWhile (· == '0')).reverse := by
        rw [List.takeWhile_append_dropWhile, List.reverse_reverse]
    _ = Text.dropEndWhile (· == '0') cs ++ (cs.reverse.takeWhile (· == '0')).reverse :=
        List.reverse_append
    _ = _ := congrArg _ (by rw [hzeros, List.reverse_replicate, List.length_replicate])

/-- Nine digits whose zeros at the end were left out are the same nine digits. -/
theorem nanosOf_dropEndWhile (h : n < 10 ^ 9) :
    nanosOf (Text.dropEndWhile (· == '0') (padded 9 n)) = n := by
  obtain ⟨k, hk⟩ := dropEndWhile_zeros (padded 9 n)
  have hlength := congrArg List.length hk
  rw [length_padded, List.length_append, List.length_replicate] at hlength
  have hrestored : (Text.dropEndWhile (· == '0') (padded 9 n) ++ List.replicate 9 '0').take 9 =
      padded 9 n := by
    have hzeros : min (9 - (Text.dropEndWhile (· == '0') (padded 9 n)).length) 9 = k := by omega
    rw [List.take_append, List.take_of_length_le (by omega), List.take_replicate, hzeros, ← hk]
  rw [nanosOf, hrestored, decimalValue_padded h]

/-- The text does not go on with a fraction. -/
def EndsFraction (cs : List Char) : Prop :=
  ∀ c ∈ cs.head?, c ≠ '.' ∧ c.isDigit = false

theorem readFraction_fraction (h : n < 10 ^ 9) (hrest : EndsFraction rest) :
    readFraction (fraction n ++ rest) = some (n, rest) := by
  rw [fraction]
  by_cases hzero : n = 0
  · rw [if_pos (beq_iff_eq.mpr hzero), hzero, List.nil_append, readFraction]
    rintro ds rfl
    exact (hrest '.' rfl).1 rfl
  · rw [if_neg (by simpa using hzero), List.cons_append, readFraction]
    have hdigits : ∀ c ∈ Text.dropEndWhile (· == '0') (padded 9 n), c.isDigit = true := by
      intro c hc
      obtain ⟨k, hk⟩ := dropEndWhile_zeros (padded 9 n)
      exact isDigit_padded 9 n c (hk ▸ List.mem_append_left _ hc)
    have hsome : Text.dropEndWhile (· == '0') (padded 9 n) ≠ [] := by
      intro hnil
      have hvalue := nanosOf_dropEndWhile h
      rw [hnil] at hvalue
      exact hzero hvalue.symm
    have hend : ∀ c ∈ rest.head?, c.isDigit = false := fun c hc => (hrest c hc).2
    rw [Text.takeWhile_run hdigits hend, Text.dropWhile_run hdigits hend, nanosOf_dropEndWhile h]
    simp [hsome]

/-! ## The distance from UTC -/

theorem endsFraction_offsetText (offset : Int) : EndsFraction (offsetText offset) := by
  rw [offsetText]
  split
  · rintro c ⟨⟩
    decide
  · split
    · rintro c ⟨⟩
      decide
    · rintro c ⟨⟩
      decide

theorem readOffset_signed {sign : Char} {hours minutes : Nat} (hh : hours < 24)
    (hm : minutes < 60) :
    readOffset (sign :: padded 2 hours ++ ':' :: padded 2 minutes) =
      if sign == '+' then some (hours * 60 + minutes : Int)
      else if sign == '-' then some (-(hours * 60 + minutes : Int)) else none := by
  have hhours : ∀ rest, digits 2 (padded 2 hours ++ rest) = some (hours, rest) :=
    digits_padded 2 (by omega)
  have hminutes : digits 2 (padded 2 minutes) = some (minutes, []) := by
    have h : digits 2 (padded 2 minutes ++ []) = some (minutes, []) :=
      digits_padded 2 (by omega) []
    rwa [List.append_nil] at h
  have hcolon : after ':' (':' :: padded 2 minutes) = some (padded 2 minutes) := rfl
  have hhour : ¬ 23 < hours := by omega
  have hminute : ¬ 59 < minutes := by omega
  rw [List.cons_append, readOffset]
  · simp [hhours, hcolon, hminutes, hhour, hminute]
  · simp
  · simp

theorem readOffset_offsetText {offset : Int} (h : isOffset offset = true) :
    readOffset (offsetText offset) = some offset := by
  rw [isOffset, Bool.and_eq_true, decide_eq_true_eq, decide_eq_true_eq] at h
  rw [offsetText]
  split
  · next hzero =>
      rw [beq_iff_eq.mp hzero]
      rfl
  · rw [readOffset_signed (by omega) (by omega)]
    by_cases hneg : offset < 0
    · have hvalue : -((offset.natAbs / 60 : Nat) * 60 + (offset.natAbs % 60 : Nat) : Int) =
          offset := by omega
      rw [if_pos hneg, hvalue]
      rfl
    · have hvalue : ((offset.natAbs / 60 : Nat) * 60 + (offset.natAbs % 60 : Nat) : Int) =
          offset := by omega
      rw [if_neg hneg, hvalue]
      rfl

/-! ## Timestamps -/

theorem after_self (c : Char) (rest : List Char) : after c (c :: rest) = some rest := by
  rw [after, if_pos (beq_self_eq_true c)]

theorem daysInMonth_le (year month : Nat) : daysInMonth year month ≤ 31 := by
  rw [daysInMonth]
  split
  · split <;> decide
  · split <;> decide

/-- A written timestamp is read as that timestamp. -/
theorem read?_chars (t : Timestamp) : read? t.chars = some t := by
  obtain ⟨year, month, day, hour, minute, second, nano, offset, hdate, htime, hoffset⟩ := t
  have hparts : ofParts? year month day hour minute second nano offset =
      some ⟨year, month, day, hour, minute, second, nano, offset, hdate, htime, hoffset⟩ :=
    dif_pos ⟨hdate, htime, hoffset⟩
  have hdays := daysInMonth_le year month
  simp only [isDate, Bool.and_eq_true, decide_eq_true_eq] at hdate
  simp only [isTime, Bool.and_eq_true, decide_eq_true_eq] at htime
  have hyear := digits_padded 4 (by omega : year < 10 ^ 4)
  have hmonth := digits_padded 2 (by omega : month < 10 ^ 2)
  have hday := digits_padded 2 (by omega : day < 10 ^ 2)
  have hhour := digits_padded 2 (by omega : hour < 10 ^ 2)
  have hminute := digits_padded 2 (by omega : minute < 10 ^ 2)
  have hsecond := digits_padded 2 (by omega : second < 10 ^ 2)
  have hseparator : ∀ rest, afterSeparator ('T' :: rest) = some rest := fun rest => rfl
  have hfraction := readFraction_fraction (by omega : nano < 10 ^ 9) (endsFraction_offsetText offset)
  have hleap : second ≠ 60 := by omega
  simp only [read?, chars, List.append_assoc, List.cons_append, Option.bind_eq_bind, hyear, hmonth,
    hday, hhour, hminute, hsecond, hfraction, after_self, hseparator, readOffset_offsetText hoffset,
    Option.bind_some, hleap, if_false, hparts]

end BibAudit.Timestamp
