/-
# BibAudit.Proofs.Value.Overquoted — one brace group around more than one word.

A content is overquoted if the brace that opens it is closed by its last character, blanks at the ends
aside, and by no earlier one, and more than one word stands in between.  The search for that brace is
compared with the reading of what follows the opening brace: read without it, the text is cut short
exactly where the group closes.  So the group ends at the last character exactly if what it encloses
is read without error, and does not hide the closing brace.
-/
import BibAudit.Proofs.Text.Trim
import BibAudit.Proofs.Value.Parts

namespace BibAudit.Value

variable {cs front inner back rest : List Char} {c : Char}

/-! ## Where the group closes -/

/-- Any character but a brace and a backslash that hides one leaves the group as it is. -/
theorem closesAtEnd_alone (h : StandsAlone c rest) (depth : Nat) :
    closesAtEnd (depth + 1) (c :: rest) = closesAtEnd (depth + 1) rest := by
  have hc := h.1
  simp only [isBrace, Bool.or_eq_false_iff, beq_eq_false_iff_ne] at hc
  rw [closesAtEnd]
  · exact h.not_hiding rfl
  · exact h.not_hiding rfl
  · exact hc.1
  · exact fun _ => hc.2
  · exact fun _ => hc.2
  · exact fun _ _ => hc.2

/-- The group closes at the end of a text exactly if reading the text one level up is cut short at its
last character. -/
theorem closesAtEnd_iff (depth column : Nat) (cs : List Char) :
    closesAtEnd (depth + 1) cs = true ↔
      (readMarks depth column cs).2 = some (.prematureClose (column + cs.length - 1)) := by
  induction depth, column, cs using readMarks.induct with
  | case1 depth column =>
      rw [readMarks, closesAtEnd]
      split <;> simp
  | case2 depth column rest _ _ _ ih =>
      have hend : column + ('\\' :: '{' :: rest).length - 1 = column + 2 + rest.length - 1 := by
        simp only [List.length_cons]
        omega
      rw [closesAtEnd, readMarks_hidden rfl, hend]
      exact ih
  | case3 depth column rest _ _ _ ih =>
      have hend : column + ('\\' :: '}' :: rest).length - 1 = column + 2 + rest.length - 1 := by
        simp only [List.length_cons]
        omega
      rw [closesAtEnd, readMarks_hidden rfl, hend]
      exact ih
  | case4 depth column rest ih =>
      have hend : column + ('{' :: rest).length - 1 = column + 1 + rest.length - 1 := by
        rw [List.length_cons]
        omega
      rw [closesAtEnd, readMarks_open, hend]
      exact ih
  | case5 column rest =>
      rw [closesAtEnd, readMarks_stray, List.isEmpty_iff, ← List.length_eq_zero_iff]
      simp only [Option.some.injEq, BraceError.prematureClose.injEq, List.length_cons]
      omega
  | case6 depth column rest ih =>
      have hend : column + ('}' :: rest).length - 1 = column + 1 + rest.length - 1 := by
        rw [List.length_cons]
        omega
      rw [closesAtEnd, readMarks_close, hend]
      exact ih
  | case7 depth column c rest hopened hclosed hopen hzero hsucc _ _ _ ih =>
      have halone : StandsAlone c rest := standsAlone_of_no_move hopened hclosed hopen hzero hsucc
      have hend : column + (c :: rest).length - 1 = column + 1 + rest.length - 1 := by
        rw [List.length_cons]
        omega
      rw [closesAtEnd_alone halone, readMarks_alone halone, hend]
      exact ih

/-- Reading is cut short at the last character exactly if that is a closing brace, not hidden, and the
text before it is read without error. -/
theorem error_at_end : (scanContent rest).error = some (.prematureClose rest.length) ↔
    ∃ inner, rest = inner ++ ['}'] ∧ inner.getLast? ≠ some '\\' ∧
      (scanContent inner).error = none := by
  constructor
  · intro h
    obtain ⟨⟨before, more, rfl, hlast, hc, hlevel⟩, hleast⟩ :=
      (error_eq_prematureClose rest rest.length).mp h
    have hmore : more = [] := by
      rw [List.length_append, List.length_cons] at hlast
      exact List.length_eq_zero_iff.mp (by omega)
    subst hmore
    have hsteady : Steady before := by
      apply steady_of_lt
      intro k hk
      have hle : (before ++ ['}']).length ≤ k := hleast hk
      rw [List.length_append, List.length_singleton] at hle
      omega
    refine ⟨before, rfl, ?_, ?_⟩
    · intro hhidden
      simp [isStructural, hhidden] at hc
    · rw [error_of_steady hsteady, if_pos hlevel]
  · rintro ⟨inner, rfl, hlast, hnone⟩
    obtain ⟨hsteady, hlevel⟩ := balanced_structural.mp ((error_eq_none inner).mp hnone)
    rw [error_of_stray hsteady (isStructural_of_isBrace rfl hlast) hlevel [], List.length_append]
    rfl

/-- One brace group is an opening and a closing brace around what is read without error. -/
theorem isOneGroup_iff (cs : List Char) : isOneGroup cs = true ↔
    ∃ inner, Text.trim cs = '{' :: (inner ++ ['}']) ∧ inner.getLast? ≠ some '\\' ∧
      (scanContent inner).error = none := by
  unfold isOneGroup
  split
  · next rest htrim =>
      have hclose : closesAtEnd 1 rest = true ↔
          (scanContent rest).error = some (.prematureClose rest.length) := by
        have hread := closesAtEnd_iff 0 1 rest
        rwa [Nat.add_sub_cancel_left] at hread
      rw [hclose, error_at_end, htrim]
      simp
  · next hother =>
      constructor
      · intro h
        cases h
      · rintro ⟨inner, htrim, -⟩
        exact absurd htrim (hother _)

/-! ## Inside and outside of a group -/

/-- Blanks around a group add no structure to it. -/
theorem structural_group (hfront : ∀ c ∈ front, Text.isBlank c = true)
    (hlast : inner.getLast? ≠ some '\\') (hback : ∀ c ∈ back, Text.isBlank c = true) :
    structural (front ++ '{' :: (inner ++ '}' :: back)) = '{' :: (structural inner ++ ['}']) := by
  have hopen : structural ('{' :: (inner ++ '}' :: back)) =
      '{' :: structural (inner ++ '}' :: back) :=
    structural_append (by decide : ['{'].getLast? ≠ some '\\') (inner ++ '}' :: back)
  have hclose : structural ('}' :: back) = '}' :: structural back :=
    structural_append (by decide : ['}'].getLast? ≠ some '\\') back
  rw [structural_append (getLast?_blanks hfront), structural_blanks hfront, hopen,
    structural_append hlast, hclose, structural_blanks hback]
  rfl

/-- The tokens of a group are those inside, one level deeper. -/
theorem tokens_group (hfront : ∀ c ∈ front, Text.isBlank c = true)
    (hlast : inner.getLast? ≠ some '\\') (hsteady : Steady inner) (hlevel : nesting inner = 0)
    (hback : ∀ c ∈ back, Text.isBlank c = true) :
    tokensOf (marksOf (front ++ '{' :: (inner ++ '}' :: back))) =
      (tokensOf (marksOf inner)).map (Token.deeper 1) := by
  have hopen : isStructural front '{' = true := isStructural_of_isBrace rfl (getLast?_blanks hfront)
  have hopened : (front ++ ['{']).getLast? ≠ some '\\' := by simp
  have hclose : isStructural (front ++ ['{'] ++ inner) '}' = true := by
    rw [isStructural_append hopened]
    exact isStructural_of_isBrace rfl hlast
  have hone : nesting (front ++ ['{']) = 1 := by
    rw [nesting_structural hopen, nesting_blanks hfront]
    rfl
  have hzero : nesting (front ++ ['{'] ++ inner ++ ['}']) = 0 := by
    rw [nesting_structural hclose, nesting_append hopened, hone, hlevel]
    rfl
  have hinside : marksOf (front ++ ['{'] ++ inner ++ ['}']) =
      marksOf front ++ (marksOf inner).map (Mark.deeper 1) := by
    rw [marksOf_structural hclose, marksOf_append hopened (by omega) hsteady,
      marksOf_structural hopen, hone]
    rfl
  have hafter : (front ++ ['{'] ++ inner ++ ['}']).getLast? ≠ some '\\' := by
    rw [List.getLast?_concat]
    decide
  have hsplit : front ++ '{' :: (inner ++ '}' :: back) =
      front ++ ['{'] ++ inner ++ ['}'] ++ back := by simp
  have hgaps : ∀ m ∈ (marksOf back).map (Mark.deeper 0), m = .gap := by
    intro m hm
    obtain ⟨n, hn, rfl⟩ := List.mem_map.mp hm
    rw [marksOf_blanks hback n hn]
    rfl
  rw [hsplit, marksOf_append hafter (by omega) (steady_of_structural (structural_blanks hback)).1,
    hzero]
  show tokensOf (_ ++ (marksOf back).map (Mark.deeper 0)) = _
  rw [tokensOf_append_gaps hgaps, hinside, tokensOf_gaps_append (marksOf_blanks hfront),
    tokensOf_deeper]

/-- A trimmed text that is a group stands between blanks. -/
theorem blanks_around_group (h : Text.trim cs = '{' :: (inner ++ ['}'])) :
    ∃ front back, cs = front ++ '{' :: (inner ++ '}' :: back) ∧
      (∀ c ∈ front, Text.isBlank c = true) ∧ ∀ c ∈ back, Text.isBlank c = true := by
  obtain ⟨front, back, hcs, hfront, hback⟩ := Text.blanks_around_trim cs
  refine ⟨front, back, ?_, hfront, hback⟩
  rw [hcs, h]
  simp

/-- A group around what is read without error is read without error, one level deeper. -/
theorem scanContent_group (htrim : Text.trim cs = '{' :: (inner ++ ['}']))
    (hlast : inner.getLast? ≠ some '\\') (hnone : (scanContent inner).error = none) :
    (scanContent cs).error = none ∧
      (scanContent cs).tokens = (scanContent inner).tokens.map (Token.deeper 1) := by
  obtain ⟨front, back, hgroup, hfront, hback⟩ := blanks_around_group htrim
  have hbalanced : Balanced (structural inner) := (error_eq_none inner).mp hnone
  obtain ⟨hsteady, hlevel⟩ := balanced_structural.mp hbalanced
  have hwhole : Balanced (structural cs) := by
    rw [hgroup, structural_group hfront hlast hback]
    exact .group hbalanced .nil
  refine ⟨(error_eq_none cs).mpr hwhole, ?_⟩
  rw [tokens_of_steady (balanced_structural.mp hwhole).1, tokens_of_steady hsteady, hgroup]
  exact tokens_group hfront hlast hsteady hlevel hback

/-- A group that closes before the end of the text is not all of it. -/
theorem not_isOneGroup {u v : List Char} (htrim : Text.trim cs = '{' :: (u ++ '}' :: v))
    (hlast : u.getLast? ≠ some '\\') (hnone : (scanContent u).error = none) (hv : v ≠ []) :
    isOneGroup cs = false := by
  rw [← Bool.not_eq_true, isOneGroup_iff]
  rintro ⟨inner, hinner, -, hinside⟩
  obtain ⟨hsteady, -⟩ := balanced_structural.mp ((error_eq_none inner).mp hinside)
  obtain ⟨-, hlevel⟩ := balanced_structural.mp ((error_eq_none u).mp hnone)
  -- The brace that closes the group stands inside the steady part, and takes it below zero.
  have hpart : u ++ ['}'] <+: inner := by
    have hsame : inner ++ ['}'] = u ++ '}' :: v := (List.cons.inj (hinner.symm.trans htrim)).2
    have hshorter : u ++ ['}'] <+: inner ++ ['}'] := ⟨v, by rw [hsame]; simp⟩
    refine List.prefix_of_prefix_length_le hshorter (List.prefix_append inner ['}']) ?_
    have hlength := congrArg List.length hsame
    have hpos : 0 < v.length := List.length_pos_iff.mpr hv
    simp only [List.length_append, List.length_cons, List.length_nil] at hlength ⊢
    omega
  have hbelow := hsteady _ hpart
  have hcloses : weight '}' = -1 := rfl
  rw [nesting_structural (isStructural_of_isBrace rfl hlast), hlevel] at hbelow
  omega

/-! ## Overquoted contents -/

/-- A content is overquoted exactly if, blanks at its ends aside, it is an opening and a closing brace
around a text that does not hide the closing one, is read without error and has at least two tokens.
Its tokens are then those of the text inside, one level deeper.  Nothing that is read with an error, is
a single word, or goes on behind the group that it starts with is overquoted. -/
theorem isOverquoted_iff (cs : List Char) :
    ((scanContent cs).isOverquoted = true ↔
        ∃ inner, Text.trim cs = '{' :: (inner ++ ['}']) ∧ inner.getLast? ≠ some '\\' ∧
          (scanContent inner).error = none ∧ 2 ≤ (scanContent inner).tokens.length) ∧
      (∀ inner, Text.trim cs = '{' :: (inner ++ ['}']) → inner.getLast? ≠ some '\\' →
        (scanContent inner).error = none →
          (scanContent cs).tokens = (scanContent inner).tokens.map (Token.deeper 1)) ∧
      ((scanContent cs).error ≠ none → (scanContent cs).isOverquoted = false) ∧
      ((scanContent cs).tokens.length ≤ 1 → (scanContent cs).isOverquoted = false) ∧
      (∀ u v, Text.trim cs = '{' :: (u ++ '}' :: v) → u.getLast? ≠ some '\\' →
        (scanContent u).error = none → v ≠ [] → (scanContent cs).isOverquoted = false) := by
  have hover : (scanContent cs).isOverquoted = true ↔
      isOneGroup cs = true ∧ 1 < (scanContent cs).tokens.length := by
    show (isOneGroup cs && decide (1 < (scanContent cs).tokens.length)) = true ↔ _
    rw [Bool.and_eq_true, decide_eq_true_iff]
  have hlength : ∀ {inner : List Char}, Text.trim cs = '{' :: (inner ++ ['}']) →
      inner.getLast? ≠ some '\\' → (scanContent inner).error = none →
        (scanContent cs).tokens.length = (scanContent inner).tokens.length := by
    intro inner htrim hlast hnone
    rw [(scanContent_group htrim hlast hnone).2, List.length_map]
  refine ⟨?_, fun inner htrim hlast hnone => (scanContent_group htrim hlast hnone).2, ?_, ?_, ?_⟩
  · rw [hover, isOneGroup_iff]
    constructor
    · rintro ⟨⟨inner, htrim, hlast, hnone⟩, hmore⟩
      rw [hlength htrim hlast hnone] at hmore
      exact ⟨inner, htrim, hlast, hnone, hmore⟩
    · rintro ⟨inner, htrim, hlast, hnone, hmore⟩
      refine ⟨⟨inner, htrim, hlast, hnone⟩, ?_⟩
      rw [hlength htrim hlast hnone]
      exact hmore
  · intro herror
    rw [← Bool.not_eq_true, hover, isOneGroup_iff]
    rintro ⟨⟨inner, htrim, hlast, hnone⟩, -⟩
    exact herror (scanContent_group htrim hlast hnone).1
  · intro hfew
    rw [← Bool.not_eq_true, hover]
    rintro ⟨-, hmore⟩
    omega
  · intro u v htrim hlast hnone hv
    rw [← Bool.not_eq_true, hover, not_isOneGroup htrim hlast hnone hv]
    rintro ⟨hgroup, -⟩
    cases hgroup

/-- A group around another one and a hidden brace, with blanks at the ends. -/
def wrappedTitle : List Char := " \x7bA \x7bb\x7d\\\x7d c\x7d ".toList

theorem isOverquoted_iff_samples :
    ((scanContent wrappedTitle).isOverquoted = true ∧
        (scanContent wrappedTitle).tokens =
          (scanContent "A \x7bb\x7d\\\x7d c".toList).tokens.map (Token.deeper 1)) ∧
      ((scanContent "\x7ba b".toList).error ≠ none ∧
        (scanContent "\x7ba b".toList).isOverquoted = false) ∧
      ((scanContent "\x7bword\x7d".toList).tokens.length ≤ 1 ∧
        (scanContent "\x7bword\x7d".toList).isOverquoted = false) ∧
      ((scanContent "A b".toList).error = none ∧
        (scanContent "\x7bA b\x7d c \x7bD\x7d".toList).isOverquoted = false) ∧
      (scanContent "a".toList).error = none ∧
        (scanContent "\x7ba\x7d \x7bb\x7d".toList).isOverquoted = false := by
  have htrim : Text.trim wrappedTitle = '{' :: ("A \x7bb\x7d\\\x7d c".toList ++ ['}']) := by decide
  have hlast : "A \x7bb\x7d\\\x7d c".toList.getLast? ≠ some '\\' := by decide
  have hnone : (scanContent "A \x7bb\x7d\\\x7d c".toList).error = none := by decide
  have hmore : 2 ≤ (scanContent "A \x7bb\x7d\\\x7d c".toList).tokens.length := by decide
  have hopen : (scanContent "\x7ba b".toList).error ≠ none := by decide
  have hword : (scanContent "\x7bword\x7d".toList).tokens.length ≤ 1 := by decide
  have hfirst : (scanContent "A b".toList).error = none := by decide
  have hsecond : (scanContent "a".toList).error = none := by decide
  obtain ⟨hiff, htokens, -⟩ := isOverquoted_iff wrappedTitle
  obtain ⟨-, -, hunbalanced, -⟩ := isOverquoted_iff "\x7ba b".toList
  obtain ⟨-, -, -, hsingle, -⟩ := isOverquoted_iff "\x7bword\x7d".toList
  obtain ⟨-, -, -, -, hlonger⟩ := isOverquoted_iff "\x7bA b\x7d c \x7bD\x7d".toList
  obtain ⟨-, -, -, -, htwo⟩ := isOverquoted_iff "\x7ba\x7d \x7bb\x7d".toList
  exact ⟨⟨hiff.mpr ⟨_, htrim, hlast, hnone, hmore⟩, htokens _ htrim hlast hnone⟩,
    ⟨hopen, hunbalanced hopen⟩, ⟨hword, hsingle hword⟩,
    ⟨hfirst, hlonger "A b".toList " c \x7bD\x7d".toList (by decide) (by decide) hfirst (by decide)⟩,
    hsecond, htwo "a".toList " \x7bb\x7d".toList (by decide) (by decide) hsecond (by decide)⟩

end BibAudit.Value
