/-
# BibAudit.Proofs.Text.Split — cutting at a separator and joining again.

Cutting a text at one character is the library's splitting of a list at an element.  Joining the pieces
gives the text back, and cutting what was joined gives the pieces back if none of them holds the
separator.
-/
import BibAudit.Text.Basic

namespace BibAudit.Text

variable {sep : Char} {pieces : List (List Char)}

theorem splitWhere_eq_splitOnP (p : Char → Bool) (cs : List Char) :
    splitWhere p cs = cs.splitOnP p := by
  induction cs with
  | nil => rfl
  | cons c rest ih =>
      rw [splitWhere, ih, List.splitOnP_cons_eq_if_modifyHead]
      obtain ⟨piece, pieces, hpieces⟩ := List.exists_cons_of_ne_nil (List.splitOnP_ne_nil p rest)
      rw [hpieces]
      rfl

theorem intercalate_splitWhere (sep : Char) (cs : List Char) :
    [sep].intercalate (splitWhere (· == sep) cs) = cs := by
  rw [splitWhere_eq_splitOnP]
  exact List.intercalate_splitOn sep

theorem splitWhere_intercalate (h : ∀ piece ∈ pieces, sep ∉ piece) (hne : pieces ≠ []) :
    splitWhere (· == sep) ([sep].intercalate pieces) = pieces := by
  rw [splitWhere_eq_splitOnP]
  exact List.splitOn_intercalate sep h hne

/-- Without its separators, a joined text is its pieces one after the other. -/
theorem filter_intercalate {p : Char → Bool} (hsep : p sep = false) (pieces : List (List Char)) :
    ([sep].intercalate pieces).filter p = pieces.flatten.filter p := by
  induction pieces with
  | nil => rfl
  | cons piece rest ih =>
      cases rest with
      | nil => rw [List.intercalate_singleton, List.flatten_singleton]
      | cons next more =>
          rw [List.intercalate_cons_cons, List.filter_append, List.filter_append, ih,
            List.flatten_cons, List.filter_append, List.filter_cons_of_neg (by simp [hsep])]
          simp

/-- A joined text holds only what its pieces hold and the separator. -/
theorem not_mem_intercalate {c : Char} (hc : c ≠ sep) (h : ∀ piece ∈ pieces, c ∉ piece) :
    c ∉ [sep].intercalate pieces := by
  intro hmem
  have hkept : c ∈ ([sep].intercalate pieces).filter (· != sep) :=
    List.mem_filter.mpr ⟨hmem, by simpa using hc⟩
  rw [filter_intercalate (by simp)] at hkept
  obtain ⟨piece, hpiece, hin⟩ := List.mem_flatten.mp (List.mem_filter.mp hkept).1
  exact h piece hpiece hin

/-- A text cut at its separators has none in any piece. -/
theorem not_mem_of_mem_splitWhere {cs piece : List Char}
    (h : piece ∈ splitWhere (· == sep) cs) : sep ∉ piece := by
  induction cs generalizing piece with
  | nil =>
      obtain rfl := List.mem_singleton.mp h
      exact List.not_mem_nil
  | cons c rest ih =>
      obtain ⟨first, others, hsplit⟩ :=
        List.exists_cons_of_ne_nil (splitWhere_ne_nil (· == sep) rest)
      rw [hsplit] at ih
      rw [splitWhere, hsplit] at h
      split at h
      · rcases List.mem_cons.mp h with rfl | hrest
        · exact List.not_mem_nil
        · exact ih hrest
      · next hc =>
          rcases List.mem_cons.mp h with rfl | hrest
          · intro hmem
            rcases List.mem_cons.mp hmem with rfl | hmem
            · simp at hc
            · exact ih List.mem_cons_self hmem
          · exact ih (List.mem_cons_of_mem first hrest)

/-! ## The first separator -/

theorem cutAt_append {before : List Char} (h : sep ∉ before) (after : List Char) :
    cutAt sep (before ++ sep :: after) = some (before, after) := by
  induction before with
  | nil => rw [List.nil_append, cutAt, if_pos (beq_self_eq_true sep)]
  | cons c rest ih =>
      rw [List.mem_cons, not_or] at h
      obtain ⟨hc, hrest⟩ := h
      rw [List.cons_append, cutAt, if_neg (by simpa using Ne.symm hc), ih hrest]
      rfl

theorem cutAt_eq_none {cs : List Char} (h : sep ∉ cs) : cutAt sep cs = none := by
  induction cs with
  | nil => rfl
  | cons c rest ih =>
      rw [List.mem_cons, not_or] at h
      obtain ⟨hc, hrest⟩ := h
      rw [cutAt, if_neg (by simpa using Ne.symm hc), ih hrest]
      rfl

end BibAudit.Text
