/-
# BibAudit.Proofs.PersonName.Bodies — which names are taken for bodies.

A name in braces as a whole names a body and is left out.  What is looked at, however, is the two ends of
the name and nothing between them.  So names are left out besides that begin with one group and end with
another one, as the name of a person does who has an accented letter in the first and in the last word.
All other names are kept.
-/
import BibAudit.Proofs.PersonName.Cut
import BibAudit.Proofs.Text.Split

namespace BibAudit.PersonName

open Value (isBrace)

variable {cs name content xs ys : List Char} {c : Char} {p : Char → Bool}
variable {ws : List (List Char)} {names : List (List (List Char))}

/-- The first character is a brace, and the last one closes it. -/
def IsOneGroup (name : List Char) : Prop :=
  ∃ inner, name = '{' :: (inner ++ ['}']) ∧ Matched inner

/-- The name begins with one group and ends with another. -/
def HasTwoEnds (name : List Char) : Prop :=
  ∃ front middle back, name = '{' :: (front ++ '}' :: (middle ++ '{' :: (back ++ ['}']))) ∧
    Matched front ∧ Matched middle ∧ Matched back

/-! ## Matching braces -/

/-- What is found among the characters of a kind is found in the text. -/
theorem exists_of_filter_eq (h : cs.filter p = xs ++ c :: ys) :
    ∃ front back, cs = front ++ c :: back ∧ front.filter p = xs ∧ back.filter p = ys := by
  obtain ⟨front, rest, rfl, hfront, hrest⟩ := List.filter_eq_append_iff.mp h
  obtain ⟨skipped, back, rfl, hskipped, -, hback⟩ := List.filter_eq_cons_iff.mp hrest
  refine ⟨front ++ skipped, back, by simp, ?_, hback⟩
  rw [List.filter_append, hfront, List.filter_eq_nil_iff.mpr hskipped, List.append_nil]

theorem matched_join (ws : List (List Char)) :
    Matched ([' '].intercalate ws) ↔ Matched ws.flatten := by
  rw [Matched, Text.filter_intercalate rfl, Matched]

/-- A balanced word that is not empty ends with a group. -/
theorem exists_last_group {w : List Char} (h : Value.Balanced w) (hne : w ≠ []) :
    ∃ before inner, w = before ++ '{' :: (inner ++ ['}']) ∧
      Value.Balanced before ∧ Value.Balanced inner := by
  induction h with
  | nil => exact absurd rfl hne
  | @group inner rest hinner hrest _ ih =>
      by_cases hlast : rest = []
      · subst hlast
        exact ⟨[], inner, rfl, .nil, hinner⟩
      · obtain ⟨before, last, rfl, hbefore, hlast⟩ := ih hlast
        exact ⟨'{' :: (inner ++ '}' :: before), last, by simp, .group hinner hbefore, hlast⟩

theorem isBraced_iff :
    isBraced name = true ↔ ∃ inner, name = '{' :: (inner ++ ['}']) := by
  rw [isBraced, Bool.and_eq_true, beq_iff_eq, beq_iff_eq]
  constructor
  · rintro ⟨hhead, hlast⟩
    obtain ⟨rest, rfl⟩ := List.head?_eq_some_iff.mp hhead
    obtain ⟨front, hfront⟩ := List.getLast?_eq_some_iff.mp hlast
    rcases List.cons_eq_append_iff.mp hfront with ⟨-, hone⟩ | ⟨inner, rfl, hrest⟩
    · cases hone
    · exact ⟨inner, by rw [hrest]⟩
  · rintro ⟨inner, rfl⟩
    refine ⟨rfl, ?_⟩
    rw [← List.cons_append, List.getLast?_concat]

/-- Of a group that is counted without some characters the braces around it stay. -/
theorem filter_group (hopen : p '{' = true) (hclose : p '}' = true) (inner : List Char) :
    ('{' :: (inner ++ ['}'])).filter p = '{' :: (inner.filter p ++ ['}']) := by
  rw [List.filter_cons_of_pos hopen, List.filter_append, List.filter_cons_of_pos hclose,
    List.filter_nil]

theorem IsOneGroup.matched (h : IsOneGroup name) : Matched name := by
  obtain ⟨inner, rfl, hinner⟩ := h
  rw [Matched, filter_group rfl rfl]
  exact .group hinner .nil

/-- Where braces match, a name with braces at its ends is one group or has two. -/
theorem oneGroup_or_twoEnds {inner : List Char} (h : Matched ('{' :: (inner ++ ['}']))) :
    IsOneGroup ('{' :: (inner ++ ['}'])) ∨ HasTwoEnds ('{' :: (inner ++ ['}'])) := by
  rw [Matched, filter_group rfl rfl] at h
  generalize hword : '{' :: (inner.filter isBrace ++ ['}']) = word at h
  cases h with
  | nil => cases hword
  | @group first rest hfirst hrest =>
      rw [List.cons_inj_right] at hword
      by_cases hone : rest = []
      · -- The brace that closes the first one is the last one.
        subst hone
        refine .inl ⟨inner, rfl, ?_⟩
        rw [Matched, List.append_cancel_right hword]
        exact hfirst
      · obtain ⟨before, last, rfl, hbefore, hlast⟩ := exists_last_group hrest hone
        have hends : inner.filter isBrace ++ ['}'] =
            (first ++ '}' :: (before ++ '{' :: last)) ++ ['}'] := by
          rw [hword]
          simp
        have hinner := List.append_cancel_right hends
        obtain ⟨front, back, rfl, rfl, hback⟩ := exists_of_filter_eq hinner
        obtain ⟨middle, back, rfl, rfl, rfl⟩ := exists_of_filter_eq hback
        exact .inr ⟨front, middle, back, by simp, hfirst, hbefore, hlast⟩

theorem HasTwoEnds.not_isOneGroup (h : HasTwoEnds name) : ¬ IsOneGroup name := by
  obtain ⟨front, middle, back, rfl, hfront, -, -⟩ := h
  rintro ⟨inner, hname, hinner⟩
  have hends : inner ++ ['}'] = ((front ++ ['}']) ++ (middle ++ '{' :: back)) ++ ['}'] := by
    rw [← (List.cons.inj hname).2]
    simp
  have hsplit := List.append_cancel_right hends
  have hbelow := (matched_iff.mp hinner).1 (front ++ ['}']) ⟨_, hsplit.symm⟩
  have hcloses : Value.surplus ['}'] = -1 := rfl
  rw [Value.surplus_append, (matched_iff.mp hfront).2] at hbelow
  omega

/-! ## What is left out -/

theorem isBraced_join_iff (h : Closes 0 ws) : isBraced ([' '].intercalate ws) = true ↔
    IsOneGroup ([' '].intercalate ws) ∨ HasTwoEnds ([' '].intercalate ws) := by
  have hmatched : Matched ([' '].intercalate ws) := by
    rw [matched_join, matched_iff]
    have hclosed := h.closed
    exact ⟨h.level, by omega⟩
  rw [isBraced_iff]
  constructor
  · rintro ⟨inner, hname⟩
    rw [hname] at hmatched ⊢
    exact oneGroup_or_twoEnds hmatched
  · rintro (⟨inner, hname, -⟩ | ⟨front, middle, back, hname, -⟩)
    · exact ⟨inner, hname⟩
    · exact ⟨front ++ '}' :: (middle ++ '{' :: back), by rw [hname]; simp⟩

/-- A list of names in braces that match is cut in one way.  Of the names that are neither empty nor
`others`, those are left out that are one group, and besides those that have a group at either end,
which are no single group; the others are kept in their order. -/
theorem splitNames_leavesOut (h : Matched content) :
    (∃! names, IsSplit (Text.words content) names) ∧
      parseList (String.ofList ('{' :: (content ++ ['}']))) =
        ((splitNames content).map parse).filter (fun n => !n.first.isEmpty) ∧
      ∀ names, IsSplit (Text.words content) names →
        (splitNames content).Sublist (names.map [' '].intercalate) ∧
        ∀ name ∈ names.map [' '].intercalate, name ≠ [] → name ≠ "others".toList →
          (name ∉ splitNames content ↔ IsOneGroup name ∨ HasTwoEnds name) ∧
          (HasTwoEnds name → ¬ IsOneGroup name) := by
  have hsplit := isSplit_cutAtAnd h
  refine ⟨⟨_, hsplit, fun names hnames => hnames.cutAtAnd_eq.symm⟩,
    parseList_enclosed (.inl ⟨rfl, rfl⟩) content, fun names hnames => ⟨?_, ?_⟩⟩
  · rw [hnames.splitNames_eq]
    exact List.filter_sublist
  · intro name hname hne hothers
    refine ⟨?_, HasTwoEnds.not_isOneGroup⟩
    obtain ⟨ws, hws, rfl⟩ := List.mem_map.mp hname
    rw [hnames.splitNames_eq, List.mem_filter, and_iff_right hname, isRead_iff, and_iff_right hne,
      and_iff_right hothers, Bool.not_eq_false, isBraced_join_iff (hnames.closes ws hws)]

/-- A body, a person with accents in both names, one with an accent in the first name, and others. -/
def mixedList : List Char :=
  "\x7bIEEE and Sons\x7d and \x7b\\'E\x7d. Gall\x7b\\'e\x7d and \x7b\\O\x7d. Foo and others".toList

/-- The person with accents in both names goes with the body; the other one stays. -/
theorem splitNames_leavesOut_mixed :
    Matched mixedList ∧
      (∃ names, IsSplit (Text.words mixedList) names ∧
        "\x7bIEEE and Sons\x7d".toList ∈ names.map [' '].intercalate ∧
        "\x7b\\'E\x7d. Gall\x7b\\'e\x7d".toList ∈ names.map [' '].intercalate) ∧
      "\x7bIEEE and Sons\x7d".toList ∉ splitNames mixedList ∧
      "\x7b\\'E\x7d. Gall\x7b\\'e\x7d".toList ∉ splitNames mixedList ∧
      parseList (String.ofList ('{' :: (mixedList ++ ['}']))) = [⟨"\\O.", "Foo"⟩] := by
  have hmatched : Matched mixedList := .group .nil (.group .nil (.group .nil (.group .nil .nil)))
  have hsplit := isSplit_cutAtAnd hmatched
  obtain ⟨-, hlist, hnames⟩ := splitNames_leavesOut hmatched
  obtain ⟨-, hleft⟩ := hnames _ hsplit
  have hbody : "\x7bIEEE and Sons\x7d".toList ∈
      (cutAtAnd 0 (Text.words mixedList)).map [' '].intercalate := by decide
  have hperson : "\x7b\\'E\x7d. Gall\x7b\\'e\x7d".toList ∈
      (cutAtAnd 0 (Text.words mixedList)).map [' '].intercalate := by decide
  refine ⟨hmatched, ⟨_, hsplit, hbody, hperson⟩, ?_, ?_, hlist.trans (by decide)⟩
  · refine (hleft _ hbody (by decide) (by decide)).1.mpr (.inl ⟨"IEEE and Sons".toList, by decide, ?_⟩)
    exact .nil
  · refine (hleft _ hperson (by decide) (by decide)).1.mpr (.inr ⟨"\\'E".toList, ". Gall".toList,
      "\\'e".toList, by decide, ?_, ?_, ?_⟩)
    · exact .nil
    · exact .nil
    · exact .nil

/-- A person with an accented letter in the first and in the last name. -/
def accentedName : List Char := "\x7b\\'E\x7d. Gall\x7b\\'e\x7d".toList

/-- The name is no single group, and is left out although. -/
theorem splitNames_accented :
    Matched accentedName ∧ IsSplit (Text.words accentedName) [Text.words accentedName] ∧
      [' '].intercalate (Text.words accentedName) = accentedName ∧ accentedName ≠ [] ∧
      accentedName ≠ "others".toList ∧ ¬ IsOneGroup accentedName ∧
      accentedName ∉ splitNames accentedName := by
  have hmatched : Matched accentedName := .group .nil (.group .nil .nil)
  have hends : HasTwoEnds accentedName := by
    refine ⟨"\\'E".toList, ". Gall".toList, "\\'e".toList, by decide, ?_, ?_, ?_⟩
    · exact .nil
    · exact .nil
    · exact .nil
  have hcut : cutAtAnd 0 (Text.words accentedName) = [Text.words accentedName] := by decide
  exact ⟨hmatched, hcut ▸ isSplit_cutAtAnd hmatched, by decide, by decide, by decide,
    hends.not_isOneGroup, by decide⟩

end BibAudit.PersonName
