/-
# BibAudit.Proofs.Tex.Comment — where the comment of a line begins.

A percent sign begins a comment unless it is escaped, and it is escaped if the backslashes right
before it are odd in number: of an even number each second one is escaped by the one before it.  The
scanner keeps one flag from character to character and does not count.  What it leaves of a line ends
before the first percent sign behind an even number of backslashes, none being such a number.  What
stands behind that sign is read by nobody, so it makes no difference to what is found on the line.
-/
import BibAudit.Proofs.Tex.Markup

namespace BibAudit.Tex

variable {line front rest cs : List Char} {escaped : Bool} {path : SourcePath} {text : String}
  {n : Nat}

/-- All percent signs of the text are escaped. -/
def NoComment (cs : List Char) : Prop :=
  ∀ front rest, cs = front ++ '%' :: rest → Odd (backslashesAtEnd front)

theorem escapesAfter_eq_false_iff (cs : List Char) :
    escapesAfter false cs = false ↔ Even (backslashesAtEnd cs) := by
  rw [← Nat.not_odd_iff_even, ← escapesAfter_iff_odd, Bool.not_eq_true]

theorem stripComment_eq_self_iff : stripComment cs = cs ↔ NoComment cs := by
  rw [stripComment, stripFrom_eq_self_iff]
  simp only [escapesAfter_iff_odd]
  exact Iff.rfl

/-! ## The first comment -/

/-- A text is left whole, or up to a percent sign that is not escaped. -/
theorem stripFrom_shape (escaped : Bool) (cs : List Char) :
    cs = stripFrom escaped cs ∨ ∃ rest, cs = stripFrom escaped cs ++ '%' :: rest ∧
      escapesAfter escaped (stripFrom escaped cs) = false := by
  induction cs generalizing escaped with
  | nil => exact .inl rfl
  | cons c cs ih =>
      rw [stripFrom]
      split
      · next hcomment =>
          obtain ⟨rfl, rfl⟩ : c = '%' ∧ escaped = false := by simpa using hcomment
          exact .inr ⟨cs, rfl, rfl⟩
      · rcases ih (c == '\\' && !escaped) with hwhole | ⟨rest, hrest, hopen⟩
        · exact .inl (congrArg (c :: ·) hwhole)
        · exact .inr ⟨rest, congrArg (c :: ·) hrest, hopen⟩

/-- From an unescaped percent sign on nothing is left, whether it is the first one or not. -/
theorem stripFrom_behind (h : escapesAfter escaped front = false) (rest : List Char) :
    stripFrom escaped (front ++ '%' :: rest) = stripFrom escaped front := by
  induction front generalizing escaped with
  | nil =>
      obtain rfl : escaped = false := h
      rfl
  | cons c front ih =>
      rw [List.cons_append, stripFrom, stripFrom]
      split
      · rfl
      · exact congrArg (c :: ·) (ih h)

/-- There is no comment in what is left. -/
theorem stripFrom_stripFrom (escaped : Bool) (cs : List Char) :
    stripFrom escaped (stripFrom escaped cs) = stripFrom escaped cs := by
  rcases stripFrom_shape escaped cs with hwhole | ⟨rest, hrest, hopen⟩
  · rw [← hwhole]
    exact hwhole.symm
  · calc stripFrom escaped (stripFrom escaped cs)
        = stripFrom escaped (stripFrom escaped cs ++ '%' :: rest) :=
          (stripFrom_behind hopen rest).symm
      _ = stripFrom escaped cs := by rw [← hrest]

theorem stripComment_stripComment (line : List Char) :
    stripComment (stripComment line) = stripComment line :=
  stripFrom_stripFrom false line

theorem stripComment_eq_iff : stripComment line = front ↔ NoComment front ∧
    (line = front ∨ ∃ rest, line = front ++ '%' :: rest ∧ Even (backslashesAtEnd front)) := by
  constructor
  · rintro rfl
    refine ⟨stripComment_eq_self_iff.mp (stripComment_stripComment line), ?_⟩
    rcases stripFrom_shape false line with hwhole | ⟨rest, hrest, hopen⟩
    · exact .inl hwhole
    · exact .inr ⟨rest, hrest, (escapesAfter_eq_false_iff _).mp hopen⟩
  · rintro ⟨hfront, rfl | ⟨rest, rfl, heven⟩⟩
    · exact stripComment_eq_self_iff.mpr hfront
    · have hopen := (escapesAfter_eq_false_iff front).mpr heven
      rw [stripComment, stripFrom_append (stripComment_eq_self_iff.mpr hfront), hopen,
        stripFrom_comment, List.append_nil]

/-! ## What stands in a comment -/

theorem stripComment_behind (h : Even (backslashesAtEnd front)) (rest : List Char) :
    stripComment (front ++ '%' :: rest) = stripComment front :=
  stripFrom_behind ((escapesAfter_eq_false_iff front).mpr h) rest

theorem citedOn_behind (h : Even (backslashesAtEnd front)) (rest : List Char) :
    citedOn (front ++ '%' :: rest) = citedOn front := by
  rw [citedOn, stripComment_behind h, ← citedOn]

theorem wordsOn_behind (h : Even (backslashesAtEnd front)) (rest : List Char) :
    wordsOn (front ++ '%' :: rest) = wordsOn front := by
  rw [wordsOn, prose, stripComment_behind h, ← prose, ← wordsOn]

/-- The keys that are cited on a line. -/
def keysAt (cs : List Citation) (n : Nat) : List String :=
  (cs.filter (·.location.line == n)).map Citation.key

theorem keysAt_citations (h : (line, n) ∈ numberedLines text) :
    keysAt (citations path text) n = citedOn line := by
  have hfound := filter_numberedLines citedOn (fun key n => (⟨key, ⟨path, n⟩⟩ : Citation))
    (fun c => c.location.line) (fun _ _ => rfl) h
  rw [keysAt, citations, hfound, List.map_map]
  exact List.map_id _

/-- What is left of a line is the part before its first unescaped percent sign, or the whole line if
all percent signs are escaped: the part has none, and it is the line or one follows it.  So it is a
prefix of the line, and nothing more goes the second time.  If two documents have lines of one number
that agree up to an unescaped percent sign, then the same keys are cited on these lines and the same
words stand on them, whatever follows the signs. -/
theorem stripComment_exact (line : List Char) :
    (∀ front, stripComment line = front ↔ NoComment front ∧
        (line = front ∨ ∃ rest, line = front ++ '%' :: rest ∧ Even (backslashesAtEnd front))) ∧
      stripComment line <+: line ∧ stripComment (stripComment line) = stripComment line ∧
      ∀ front rest, line = front ++ '%' :: rest → Even (backslashesAtEnd front) →
        ∀ (path : SourcePath) (text changed : String) (n : Nat) (other : List Char),
          (line, n) ∈ numberedLines text → (front ++ '%' :: other, n) ∈ numberedLines changed →
            keysAt (citations path changed) n = keysAt (citations path text) n ∧
              wordsAt (document path changed) n = wordsAt (document path text) n := by
  refine ⟨fun front => stripComment_eq_iff, stripFrom_isPart false line,
    stripComment_stripComment line, ?_⟩
  rintro front rest rfl heven path text changed n other htext hchanged
  constructor
  · rw [keysAt_citations htext, keysAt_citations hchanged, citedOn_behind heven,
      citedOn_behind heven]
  · rw [wordsAt_document htext, wordsAt_document hchanged, wordsOn_behind heven,
      wordsOn_behind heven]

/-- An escaped percent sign, and at the end a line break: two backslashes, which escape nothing. -/
def brokenFront : List Char :=
  "50\\% of \\cite{a}\\\\".toList

def shortRemark : String :=
  "50\\% of \\cite{a}\\\\% or\nend"

def longRemark : String :=
  "50\\% of \\cite{a}\\\\% or % \\cite{b}\nend"

theorem stripComment_exact_broken :
    stripComment (brokenFront ++ '%' :: " or".toList) = brokenFront ∧
      Even (backslashesAtEnd brokenFront) ∧
      (brokenFront ++ '%' :: " or".toList, 1) ∈ numberedLines shortRemark ∧
      (brokenFront ++ '%' :: " or % \\cite{b}".toList, 1) ∈ numberedLines longRemark ∧
      keysAt (citations ⟨"paper.tex"⟩ shortRemark) 1 = ["a"] ∧
      keysAt (citations ⟨"paper.tex"⟩ longRemark) 1 =
        keysAt (citations ⟨"paper.tex"⟩ shortRemark) 1 ∧
      wordsAt (document ⟨"paper.tex"⟩ longRemark) 1 =
        wordsAt (document ⟨"paper.tex"⟩ shortRemark) 1 := by
  have heven : Even (backslashesAtEnd brokenFront) := by decide
  have hshort : (brokenFront ++ '%' :: " or".toList, 1) ∈ numberedLines shortRemark := by decide
  have hlong : (brokenFront ++ '%' :: " or % \\cite{b}".toList, 1) ∈ numberedLines longRemark := by
    decide
  obtain ⟨-, -, -, hsame⟩ := stripComment_exact (brokenFront ++ '%' :: " or".toList)
  obtain ⟨hkeys, hwords⟩ :=
    hsame brokenFront _ rfl heven ⟨"paper.tex"⟩ shortRemark longRemark 1 _ hshort hlong
  exact ⟨by decide, heven, hshort, hlong, by decide, hkeys, hwords⟩

end BibAudit.Tex
