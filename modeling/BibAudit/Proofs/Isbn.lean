/-
# BibAudit.Proofs.Isbn — what is found wrong with a number, and whether it converts.

Blanks around a number change nothing.  A short number with nothing wrong but its grouping converts,
so a number that is found valid always has a long form.
-/
import BibAudit.Isbn
import BibAudit.Proofs.Text.Trim

namespace BibAudit.Isbn

@[simp] theorem compact_trim (cs : List Char) : compact (Text.trim cs) = compact cs := by
  rw [compact, compact, Text.trim_trim]

@[simp] theorem kindOf?_trim (cs : List Char) : kindOf? (Text.trim cs) = kindOf? cs := by
  rw [kindOf?, kindOf?, compact_trim]

theorem checksumValid_trim (cs : List Char) : checksumValid (Text.trim cs) = checksumValid cs := by
  rw [checksumValid, checksumValid, compact_trim]

theorem formatValid_trim (cs : List Char) (kind : Kind) :
    formatValid (Text.trim cs) kind = formatValid cs kind := by
  rw [formatValid, formatValid, groupLengths, groupLengths, Text.trim_trim]

@[simp] theorem validate_trim (cs : List Char) : validate (Text.trim cs) = validate cs := by
  simp only [validate, compact_trim, checksumValid_trim, formatValid_trim]

/-- A short number whose grouping at most is wrong has a long form. -/
theorem toIsbn13_eq_ok {cs : List Char} (hk : kindOf? cs = some .isbn10)
    (hv : ∀ p ∈ validate cs, p.isFormat = true) :
    toIsbn13 cs = .ok (String.ofList (longForm (Text.trim cs))) := by
  have hnone : (validate cs).find? (fun p => !p.isFormat) = none := by
    rw [List.find?_eq_none]
    intro p hp
    simp [hv p hp]
  simp only [toIsbn13, kindOf?_trim, validate_trim, hk, hnone, if_pos]

theorem toIsbn13_eq_notIsbn10 {cs : List Char} (hk : kindOf? cs ≠ some .isbn10) :
    toIsbn13 cs = .error (.notIsbn10 (String.ofList (Text.trim cs))) := by
  unfold toIsbn13
  simp only [kindOf?_trim, if_neg hk]

theorem toIsbn13_eq_invalid {cs : List Char} {p : Problem} (hk : kindOf? cs = some .isbn10)
    (hp : (validate cs).find? (fun p => !p.isFormat) = some p) :
    toIsbn13 cs = .error (.invalid p) := by
  simp only [toIsbn13, kindOf?_trim, validate_trim, hk, hp, if_pos]

end BibAudit.Isbn
