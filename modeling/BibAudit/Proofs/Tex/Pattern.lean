/-
# BibAudit.Proofs.Tex.Pattern — a search goes through a line part by part.

What a search makes of a part often does not depend on what follows it: a part without the character
with which matches begin is passed over, and a part that is one match, whatever follows, is found.
Where each part of a line is of this kind, the search of the line is that of its parts, one after the
other.
-/
import BibAudit.Tex.Prose
import Mathlib.Data.List.Basic

namespace BibAudit.Tex

variable {α : Type} {p : Pattern α} {start close c : Char} {cs ds rest inside : List Char} {a : α}
variable {ps qs : List (Piece α)}

/-! ## Groups -/

theorem upTo_append (h : close ∉ inside) (rest : List Char) :
    upTo close (inside ++ close :: rest) = some (inside, rest) := by
  induction inside with
  | nil => rw [List.nil_append, upTo, if_pos (beq_self_eq_true close)]
  | cons c inside ih =>
      rw [List.mem_cons, not_or] at h
      rw [List.cons_append, upTo, if_neg (by simpa using Ne.symm h.1), ih h.2]
      rfl

theorem upTo_eq_none (h : close ∉ cs) : upTo close cs = none := by
  induction cs with
  | nil => rfl
  | cons c cs ih =>
      rw [List.mem_cons, not_or] at h
      rw [upTo, if_neg (by simpa using Ne.symm h.1), ih h.2]
      rfl

theorem group_append {opening : Char} (h : close ∉ inside) (rest : List Char) :
    group opening close (opening :: (inside ++ close :: rest)) = some (inside, rest) := by
  rw [group, if_pos (beq_self_eq_true opening), upTo_append h]

theorem dropGroup_append {opening : Char} (h : close ∉ inside) (rest : List Char) :
    dropGroup opening close (opening :: (inside ++ close :: rest)) = rest := by
  rw [dropGroup, group_append h]

theorem dropGroup_of_ne {opening : Char} (h : c ≠ opening) (rest : List Char) :
    dropGroup opening close (c :: rest) = c :: rest := by
  rw [dropGroup, group, if_neg (by simpa using h)]

theorem dropOptional_of_neg {q : Char → Bool} (h : q c = false) (rest : List Char) :
    dropOptional q (c :: rest) = c :: rest := by
  rw [dropOptional, if_neg (by simp [h])]

/-! ## Searches -/

theorem pieces_nil : pieces p [] = [] := rfl

theorem pieces_cons_of_none (h : p (c :: rest) = none) :
    pieces p (c :: rest) = .plain c :: pieces p rest := by
  rw [pieces, piecesFrom, h]
  rfl

theorem piecesFrom_append (p : Pattern α) (cs rest : List Char) :
    piecesFrom p cs.length (cs ++ rest) = pieces p rest := by
  induction cs with
  | nil => rfl
  | cons c cs ih =>
      rw [List.cons_append, List.length_cons, piecesFrom]
      exact ih

theorem pieces_of_some (h : p (c :: (cs ++ rest)) = some (a, rest)) :
    pieces p (c :: (cs ++ rest)) = .found a :: pieces p rest := by
  have hlength : (cs ++ rest).length - rest.length = cs.length := by
    rw [List.length_append, Nat.add_sub_cancel]
  rw [pieces, piecesFrom, h]
  show Piece.found a :: piecesFrom p ((cs ++ rest).length - rest.length) (cs ++ rest) = _
  rw [hlength, piecesFrom_append]

theorem blankOut_cons_of_none (h : p (c :: rest) = none) :
    blankOut p (c :: rest) = c :: blankOut p rest := by
  rw [blankOut, pieces_cons_of_none h]
  rfl

theorem blankOut_of_some (h : p (c :: (cs ++ rest)) = some (a, rest)) :
    blankOut p (c :: (cs ++ rest)) = ' ' :: blankOut p rest := by
  rw [blankOut, pieces_of_some h]
  rfl

theorem inlineMath_append (h : '$' ∉ inside) (rest : List Char) :
    inlineMath ('$' :: (inside ++ '$' :: rest)) = some ((), rest) := by
  rw [inlineMath, upTo_append h]
  rfl

theorem inlineMath_eq_none (h : '$' ∉ rest) : inlineMath ('$' :: rest) = none := by
  rw [inlineMath, upTo_eq_none h]
  rfl

theorem blankOut_inlineMath_append (h : '$' ∉ inside) (rest : List Char) :
    blankOut inlineMath ('$' :: (inside ++ '$' :: rest)) = ' ' :: blankOut inlineMath rest := by
  have hmatch := inlineMath_append h rest
  rw [List.append_cons] at hmatch ⊢
  exact blankOut_of_some hmatch

/-- A match can begin with one character only. -/
def StartsWith (p : Pattern α) (start : Char) : Prop :=
  ∀ c rest, c ≠ start → p (c :: rest) = none

theorem cite_startsWith : StartsWith cite '\\' := by
  intro c rest h
  rw [cite]
  simpa using h

theorem silentCommand_startsWith : StartsWith silentCommand '\\' := by
  intro c rest h
  rw [silentCommand]
  simpa using h

theorem inlineMath_startsWith : StartsWith inlineMath '$' := by
  intro c rest h
  rw [inlineMath]
  simpa using h

theorem command_startsWith : StartsWith command '\\' := by
  intro c rest h
  rw [command]
  simp [h]

/-! ## Part by part -/

/-- Whatever follows it, the search makes these pieces of the part. -/
def ReadsAs (p : Pattern α) (cs : List Char) (ps : List (Piece α)) : Prop :=
  ∀ rest, pieces p (cs ++ rest) = ps ++ pieces p rest

theorem readsAs_nil (p : Pattern α) : ReadsAs p [] [] :=
  fun _ => rfl

theorem ReadsAs.append (hc : ReadsAs p cs ps) (hd : ReadsAs p ds qs) :
    ReadsAs p (cs ++ ds) (ps ++ qs) := by
  intro rest
  rw [List.append_assoc, hc, hd, List.append_assoc]

theorem StartsWith.readsAs (hp : StartsWith p start) (h : start ∉ cs) :
    ReadsAs p cs (cs.map .plain) := by
  intro rest
  induction cs with
  | nil => rfl
  | cons c cs ih =>
      rw [List.mem_cons, not_or] at h
      rw [List.cons_append, pieces_cons_of_none (hp c _ (Ne.symm h.1)), ih h.2]
      rfl

theorem readsAs_of_some (h : ∀ rest, p (c :: (cs ++ rest)) = some (a, rest)) :
    ReadsAs p (c :: cs) [.found a] :=
  fun rest => pieces_of_some (h rest)

theorem readsAs_flatMap {β : Type} {items : List β} {written : β → List Char}
    {read : β → List (Piece α)} (h : ∀ b ∈ items, ReadsAs p (written b) (read b)) :
    ReadsAs p (items.flatMap written) (items.flatMap read) := by
  induction items with
  | nil => exact readsAs_nil p
  | cons b items ih =>
      obtain ⟨hb, hitems⟩ := List.forall_mem_cons.mp h
      rw [List.flatMap_cons, List.flatMap_cons]
      exact hb.append (ih hitems)

theorem ReadsAs.pieces_eq (h : ReadsAs p cs ps) : pieces p cs = ps := by
  have hend := h []
  rwa [pieces_nil, List.append_nil, List.append_nil] at hend

theorem ReadsAs.blankOut_eq (h : ReadsAs p cs ps) : blankOut p cs = ps.map Piece.blanked := by
  rw [blankOut, h.pieces_eq]

/-- What a piece is a match of. -/
def Piece.found? : Piece α → Option α
  | .plain _ => none
  | .found a => some a

theorem ReadsAs.findAll_eq (h : ReadsAs p cs ps) : findAll p cs = ps.filterMap Piece.found? := by
  rw [findAll, h.pieces_eq]
  rfl

theorem found_plain (cs : List Char) :
    (cs.map (Piece.plain (α := α))).filterMap Piece.found? = [] := by
  rw [List.filterMap_map]
  exact List.filterMap_eq_nil_iff.mpr fun _ _ => rfl

theorem blanked_plain (cs : List Char) : (cs.map (Piece.plain (α := α))).map Piece.blanked = cs := by
  rw [List.map_map]
  exact List.map_id cs

theorem StartsWith.blankOut_eq (hp : StartsWith p start) (h : start ∉ cs) : blankOut p cs = cs := by
  rw [(hp.readsAs h).blankOut_eq, blanked_plain]

end BibAudit.Tex
