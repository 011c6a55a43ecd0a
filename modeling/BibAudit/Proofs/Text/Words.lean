/-
# BibAudit.Proofs.Text.Words — words, and joining them again.

A word is a text without blanks that is not empty.  The words of a text with a blank in it are those
before the blank and those behind it; so words that are joined by single spaces are found again, each
as it was, and the words together are the text without its blanks.
-/
import BibAudit.Proofs.Text.Lines
import BibAudit.Proofs.Text.Trim

namespace BibAudit.Text

variable {cs w : List Char} {c : Char} {ws : List (List Char)}

/-- A text that is one word. -/
structure IsWord (w : List Char) : Prop where
  filled : w ≠ []
  visible : ∀ c ∈ w, isBlank c = false

instance (w : List Char) : Decidable (IsWord w) :=
  decidable_of_iff (w ≠ [] ∧ (w.all fun c => !isBlank c) = true)
    ⟨fun ⟨h, hv⟩ => ⟨h, by simpa using hv⟩, fun h => ⟨h.filled, by simpa using h.visible⟩⟩

theorem splitWhere_eq_singleton {p : Char → Bool} (h : ∀ c ∈ cs, p c = false) :
    splitWhere p cs = [cs] := by
  induction cs with
  | nil => rfl
  | cons c rest ih =>
      obtain ⟨hc, hrest⟩ := List.forall_mem_cons.mp h
      rw [splitWhere, ih hrest, hc]
      rfl

theorem flatten_splitWhere (p : Char → Bool) (cs : List Char) :
    (splitWhere p cs).flatten = cs.filter fun c => !p c := by
  induction cs with
  | nil => rfl
  | cons c rest ih =>
      obtain ⟨piece, pieces, hpieces⟩ := List.exists_cons_of_ne_nil (splitWhere_ne_nil p rest)
      rw [hpieces, List.flatten_cons] at ih
      rw [splitWhere, hpieces]
      by_cases hc : p c = true
      · simp [hc, ih]
      · simp [hc, ← ih]

/-- Of a text, words leave all but the blanks. -/
theorem flatten_words (cs : List Char) : (words cs).flatten = cs.filter fun c => !isBlank c := by
  rw [words, List.flatten_filter_not_isEmpty, flatten_splitWhere]

theorem words_append_blank (hc : isBlank c = true) (before after : List Char) :
    words (before ++ c :: after) = words before ++ words after := by
  rw [words, splitWhere_concat hc, List.filter_append]
  rfl

theorem words_of_isWord (h : IsWord w) : words w = [w] := by
  rw [words, splitWhere_eq_singleton h.visible]
  simp [h.filled]

theorem words_append_of_blank {gap : List Char} (h : ∀ c ∈ gap, isBlank c = true)
    (rest : List Char) : words (gap ++ rest) = words rest := by
  induction gap with
  | nil => rfl
  | cons c gap ih =>
      obtain ⟨hc, hgap⟩ := List.forall_mem_cons.mp h
      rw [List.cons_append]
      exact (words_append_blank hc [] (gap ++ rest)).trans (ih hgap)

/-- A word ends where the text ends or a blank stands. -/
theorem words_append_of_isWord {rest : List Char} (h : IsWord w)
    (hrest : ∀ c ∈ rest.head?, isBlank c = true) : words (w ++ rest) = w :: words rest := by
  cases rest with
  | nil => rw [List.append_nil, words_of_isWord h]; rfl
  | cons c rest =>
      have hc : isBlank c = true := hrest c rfl
      have hstart : words (c :: rest) = words rest := words_append_blank hc [] rest
      rw [words_append_blank hc, words_of_isWord h, hstart, List.singleton_append]

theorem isWord_of_mem_words (h : w ∈ words cs) : IsWord w := by
  refine ⟨ne_nil_of_mem_words h, fun c hc => ?_⟩
  have hflat : c ∈ (words cs).flatten := List.mem_flatten.mpr ⟨w, h, hc⟩
  rw [flatten_words] at hflat
  simpa using (List.mem_filter.mp hflat).2

theorem words_eq_nil : words cs = [] ↔ ∀ c ∈ cs, isBlank c = true := by
  constructor
  · intro h
    have hflat := flatten_words cs
    rw [h, List.flatten_nil, eq_comm, List.filter_eq_nil_iff] at hflat
    exact fun c hc => by simpa using hflat c hc
  · intro h
    have hnone := words_append_of_blank h []
    rwa [List.append_nil] at hnone

/-- A trimmed text with a single word is that word: a blank in it would have a word on either side. -/
theorem Tight.eq_of_words (htight : Tight cs) (h : words cs = [w]) : cs = w := by
  by_cases hblank : ∃ c ∈ cs, isBlank c = true
  · obtain ⟨c, hc, hblank⟩ := hblank
    obtain ⟨before, after, rfl⟩ := List.append_of_mem hc
    rw [words_append_blank hblank] at h
    rcases List.append_eq_singleton_iff.mp h with ⟨hbefore, -⟩ | ⟨-, hafter⟩
    · have hhead : ∃ d ∈ (before ++ c :: after).head?, isBlank d = true := by
        cases before with
        | nil => exact ⟨c, rfl, hblank⟩
        | cons d rest => exact ⟨d, rfl, words_eq_nil.mp hbefore d List.mem_cons_self⟩
      obtain ⟨d, hd, hdblank⟩ := hhead
      rw [htight.head d hd] at hdblank
      cases hdblank
    · have hlast : ∃ d ∈ (before ++ c :: after).getLast?, isBlank d = true := by
        rcases List.eq_nil_or_concat after with rfl | ⟨front, d, rfl⟩
        · exact ⟨c, by simp, hblank⟩
        · exact ⟨d, by simp [List.getLast?_cons], words_eq_nil.mp hafter d (by simp)⟩
      obtain ⟨d, hd, hdblank⟩ := hlast
      rw [htight.last d hd] at hdblank
      cases hdblank
  · have hvisible : ∀ c ∈ cs, isBlank c = false := by simpa using hblank
    have hfilled : cs ≠ [] := by
      rintro rfl
      cases h
    rw [words_of_isWord ⟨hfilled, hvisible⟩] at h
    exact (List.cons.inj h).1

/-- Words joined by single spaces are found again. -/
theorem words_join (h : ∀ w ∈ ws, IsWord w) : words ([' '].intercalate ws) = ws := by
  induction ws with
  | nil => rfl
  | cons w rest ih =>
      obtain ⟨hw, hrest⟩ := List.forall_mem_cons.mp h
      cases rest with
      | nil => rw [List.intercalate_singleton, words_of_isWord hw]
      | cons next more =>
          rw [List.intercalate_cons_cons, List.append_assoc, List.singleton_append,
            words_append_blank (by decide), words_of_isWord hw, ih hrest, List.singleton_append]

/-! ## Joined words -/

theorem join_append {vs : List (List Char)} (hv : vs ≠ []) (hw : ws ≠ []) :
    [' '].intercalate (vs ++ ws) = [' '].intercalate vs ++ ' ' :: [' '].intercalate ws := by
  induction vs with
  | nil => exact absurd rfl hv
  | cons v rest ih =>
      cases rest with
      | nil =>
          obtain ⟨next, more, rfl⟩ := List.exists_cons_of_ne_nil hw
          rw [List.singleton_append, List.intercalate_cons_cons, List.intercalate_singleton,
            List.append_assoc, List.singleton_append]
      | cons next more =>
          rw [List.cons_append, List.cons_append, List.intercalate_cons_cons, ← List.cons_append,
            ih (List.cons_ne_nil next more), List.intercalate_cons_cons]
          simp only [List.append_assoc]

/-- What is written right behind joined words belongs to the last one. -/
theorem join_concat_append (front : List (List Char)) (w more : List Char) :
    [' '].intercalate (front ++ [w]) ++ more = [' '].intercalate (front ++ [w ++ more]) := by
  rcases front with _ | ⟨v, rest⟩
  · rw [List.nil_append, List.nil_append, List.intercalate_singleton, List.intercalate_singleton]
  · rw [join_append (List.cons_ne_nil v rest) (List.cons_ne_nil w []),
      join_append (List.cons_ne_nil v rest) (List.cons_ne_nil (w ++ more) []),
      List.intercalate_singleton, List.intercalate_singleton, List.append_assoc, List.cons_append]

theorem head?_join (h : ∀ w ∈ ws, w ≠ []) : ([' '].intercalate ws).head? = ws.flatten.head? := by
  rcases ws with _ | ⟨w, rest⟩
  · rfl
  · obtain ⟨c, cs, rfl⟩ := List.exists_cons_of_ne_nil (h w List.mem_cons_self)
    cases rest with
    | nil => rfl
    | cons next more => rw [List.intercalate_cons_cons]; rfl

theorem getLast?_join (h : ∀ w ∈ ws, w ≠ []) :
    ([' '].intercalate ws).getLast? = ws.flatten.getLast? := by
  rcases List.eq_nil_or_concat ws with rfl | ⟨front, w, rfl⟩
  · rfl
  · rw [List.concat_eq_append] at h ⊢
    obtain ⟨c, cs, rfl⟩ := List.exists_cons_of_ne_nil (h w (by simp))
    rcases front with _ | ⟨v, rest⟩
    · simp
    · rw [join_append (List.cons_ne_nil v rest) (List.cons_ne_nil _ []), List.intercalate_singleton,
        List.flatten_append, List.flatten_singleton, List.getLast?_append, List.getLast?_append,
        List.getLast?_cons_cons, List.getLast?_cons, Option.some_or, Option.some_or]

/-- Joined words have no blank at their ends. -/
theorem tight_join (h : ∀ w ∈ ws, IsWord w) : Tight ([' '].intercalate ws) := by
  have hfilled : ∀ w ∈ ws, w ≠ [] := fun w hw => (h w hw).filled
  have hvisible : ∀ c ∈ ws.flatten, isBlank c = false := by
    intro c hc
    obtain ⟨w, hw, hcw⟩ := List.mem_flatten.mp hc
    exact (h w hw).visible c hcw
  constructor
  · rw [head?_join hfilled]
    exact fun c hc => hvisible c (List.mem_of_mem_head? hc)
  · rw [getLast?_join hfilled]
    exact fun c hc => hvisible c (List.mem_of_mem_getLast? hc)

end BibAudit.Text
