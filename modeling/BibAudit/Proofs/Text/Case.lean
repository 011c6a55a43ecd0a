/-
# BibAudit.Proofs.Text.Case — folding ASCII case.

Names of types, fields and checks are lowered where they are read and again where they are kept.  No
ASCII capital is left after the first time, and the second time changes nothing.
-/
import BibAudit.Proofs.Text.Trim
import BibAudit.Text.Case

namespace BibAudit.Text

/-- Characters beyond ASCII are no capitals that are lowered. -/
theorem not_capital {c : Char} (h : 128 ≤ c.toNat) : ¬ (c.val ≥ 'A'.val ∧ c.val ≤ 'Z'.val) := by
  rintro ⟨-, hle⟩
  have hval : c.toNat = c.val.toNat := rfl
  have hz : c.val.toNat ≤ 90 := UInt32.le_iff_toNat_le.mp hle
  omega

theorem toLower_toLower (c : Char) : c.toLower.toLower = c.toLower := by
  rcases Nat.lt_or_ge c.toNat 128 with hascii | hother
  · exact forall_ascii (p := fun c => c.toLower.toLower = c.toLower) (by decide) hascii
  · have hself : c.toLower = c := dif_neg (not_capital hother)
    rw [hself, hself]

/-- A lowered character is no ASCII capital. -/
theorem isUpper_toLower (c : Char) : c.toLower.isUpper = false := by
  rcases Nat.lt_or_ge c.toNat 128 with hascii | hother
  · exact forall_ascii (p := fun c => c.toLower.isUpper = false) (by decide) hascii
  · have hnot : ¬ (c.val ≥ 'A'.val ∧ c.val ≤ 'Z'.val) := not_capital hother
    have hself : c.toLower = c := dif_neg hnot
    rw [hself]
    exact decide_eq_false hnot

/-- A lowered letter is a small letter. -/
theorem isLower_toLower {c : Char} (h : c.isAlpha = true) : c.toLower.isLower = true := by
  have hascii : c.toNat < 128 := toNat_lt_of_isAlphanum (by simp [Char.isAlphanum, h])
  exact forall_ascii (p := fun c => c.isAlpha = true → c.toLower.isLower = true) (by decide)
    hascii h

@[simp] theorem lowerAscii_lowerAscii (s : String) : lowerAscii (lowerAscii s) = lowerAscii s := by
  simp only [lowerAscii, String.toList_ofList, List.map_map, Function.comp_def, toLower_toLower]

end BibAudit.Text
