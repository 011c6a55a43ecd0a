/-
# BibAudit.Proofs.Text.Lines — writing lines and cutting them again.

Written lines are each ended by a newline.  Cutting the text gives the same lines back if none of
them holds a newline or ends in a carriage return, which would count as part of its line ending.
-/
import BibAudit.Proofs.Text.Split
import BibAudit.Text.Basic

namespace BibAudit.Text

/-- Lines, each ended by a newline. -/
def unlines (ls : List (List Char)) : List Char :=
  ls.flatMap fun l => l ++ ['\n']

@[simp] theorem unlines_cons (l : List Char) (ls : List (List Char)) :
    unlines (l :: ls) = l ++ '\n' :: unlines ls := by
  simp [unlines]

/-- A text that can stand on a line of its own. -/
structure IsLine (l : List Char) : Prop where
  newline : '\n' ∉ l
  carriage : l.getLast? ≠ some '\r'

theorem splitWhere_append {p : Char → Bool} {l : List Char} (h : ∀ c ∈ l, p c = false)
    {sep : Char} (hsep : p sep = true) (rest : List Char) :
    splitWhere p (l ++ sep :: rest) = l :: splitWhere p rest := by
  induction l with
  | nil => rw [List.nil_append, splitWhere_cons_sep hsep]
  | cons c cs ih =>
      have hc : p c = false := h c List.mem_cons_self
      have hcs : ∀ d ∈ cs, p d = false := fun d hd => h d (List.mem_cons_of_mem c hd)
      rw [List.cons_append, splitWhere, ih hcs, hc]
      rfl

theorem splitWhere_unlines {ls : List (List Char)} (h : ∀ l ∈ ls, IsLine l) :
    splitWhere (· == '\n') (unlines ls) = ls ++ [[]] := by
  induction ls with
  | nil => rfl
  | cons l rest ih =>
      have hl : ∀ c ∈ l, (c == '\n') = false := by
        intro c hc
        have hne : c ≠ '\n' := fun he => (h l List.mem_cons_self).newline (he ▸ hc)
        simpa using hne
      rw [unlines_cons, splitWhere_append hl rfl,
        ih fun m hm => h m (List.mem_cons_of_mem l hm), List.cons_append]

theorem dropReturn_eq_self {l : List Char} (h : IsLine l) : dropReturn l = l := by
  rw [dropReturn, if_neg h.carriage]

/-- All pieces but the last one of a text were ended by a newline. -/
theorem linesOfPieces_append (ps : List (List Char)) {qs : List (List Char)} (hq : qs ≠ []) :
    linesOfPieces (ps ++ qs) = ps.map dropReturn ++ linesOfPieces qs := by
  induction ps with
  | nil => rfl
  | cons l rest ih =>
      obtain ⟨m, ms, hm⟩ := List.exists_cons_of_ne_nil (l := rest ++ qs) (by simp [hq])
      rw [List.cons_append, hm, linesOfPieces, ← hm, ih, List.map_cons, List.cons_append]
      simp

theorem linesOfPieces_concat_nil (ls : List (List Char)) :
    linesOfPieces (ls ++ [[]]) = ls.map dropReturn := by
  rw [linesOfPieces_append ls (List.cons_ne_nil _ _)]
  exact List.append_nil _

/-- Lines that were written are read again, each as it was. -/
theorem lines_unlines {ls : List (List Char)} (h : ∀ l ∈ ls, IsLine l) :
    lines (unlines ls) = ls := by
  rw [lines, splitWhere_unlines h, linesOfPieces_concat_nil]
  exact (List.map_congr_left fun l hl => dropReturn_eq_self (h l hl)).trans (List.map_id ls)

theorem subset_of_mem_linesOfPieces {ps : List (List Char)} {l : List Char}
    (h : l ∈ linesOfPieces ps) : ∃ p ∈ ps, l ⊆ p := by
  induction ps with
  | nil => cases h
  | cons p rest ih =>
      cases rest with
      | nil =>
          rw [linesOfPieces] at h
          split at h
          · cases h
          · exact ⟨p, List.mem_cons_self, List.mem_singleton.mp h ▸ List.Subset.refl p⟩
      | cons q more =>
          have hcons : linesOfPieces (p :: q :: more) =
              dropReturn p :: linesOfPieces (q :: more) := rfl
          rcases List.mem_cons.mp (hcons ▸ h) with rfl | hmem
          · refine ⟨p, List.mem_cons_self, ?_⟩
            rw [dropReturn]
            split
            · exact (List.dropLast_prefix p).subset
            · exact List.Subset.refl p
          · obtain ⟨r, hr, hsubset⟩ := ih hmem
            exact ⟨r, List.mem_cons_of_mem p hr, hsubset⟩

/-- There is no newline on a line. -/
theorem newline_not_mem_of_mem_lines {cs l : List Char} (h : l ∈ lines cs) : '\n' ∉ l := by
  obtain ⟨piece, hpiece, hsubset⟩ := subset_of_mem_linesOfPieces h
  exact fun hmem => not_mem_of_mem_splitWhere hpiece (hsubset hmem)

/-! ## One text after another -/

theorem splitWhere_concat {p : Char → Bool} {sep : Char} (hsep : p sep = true)
    (before rest : List Char) :
    splitWhere p (before ++ sep :: rest) = splitWhere p before ++ splitWhere p rest := by
  induction before with
  | nil => rw [List.nil_append, splitWhere_cons_sep hsep]; rfl
  | cons c cs ih =>
      obtain ⟨piece, pieces, hpieces⟩ := List.exists_cons_of_ne_nil (splitWhere_ne_nil p cs)
      rw [List.cons_append, splitWhere, splitWhere, ih, hpieces]
      by_cases hc : p c = true
      · simp [hc]
      · simp [hc]

/-- The text leaves no line open: it is empty or ends in a newline. -/
def Ended (cs : List Char) : Prop :=
  cs = [] ∨ cs.getLast? = some '\n'

instance (cs : List Char) : Decidable (Ended cs) :=
  inferInstanceAs (Decidable (_ ∨ _))

/-- After a text that leaves no line open come the lines of the next one. -/
theorem lines_append {before : List Char} (h : Ended before) (rest : List Char) :
    lines (before ++ rest) = lines before ++ lines rest := by
  rcases h with rfl | hlast
  · rfl
  · obtain ⟨front, rfl⟩ := List.getLast?_eq_some_iff.mp hlast
    have hfront : lines (front ++ ['\n']) = (splitWhere (· == '\n') front).map dropReturn := by
      rw [lines, splitWhere_concat rfl]
      exact linesOfPieces_concat_nil _
    rw [hfront, List.append_assoc, List.singleton_append, lines, splitWhere_concat rfl,
      linesOfPieces_append _ (splitWhere_ne_nil _ _)]
    rfl

end BibAudit.Text
