/-
# BibAudit.Proofs.Value.Structure — what reading leaves of a part of a value.

A brace is structural if no backslash stands right before it.  That is said here of places in a text,
without regard to the reading: each character is taken with the part of the text before it, and the
nesting at a place is the number of structural braces opened before it less the number of those
closed.

Reading goes over a part of a text in moves of one character, or of a backslash and the brace that it
hides.  As long as the nesting is not negative, the depth that the reading counts is the nesting, and
what it leaves is one mark for every character that is no structural brace.
-/
import BibAudit.Proofs.Value.Counters
import Mathlib.Data.List.Infix

namespace BibAudit.Value

variable {cs before rest : List Char} {c : Char} {depth column : Nat}

/-! ## Places -/

/-- The characters of a text, each with what stands before it, the text itself standing behind
`before`. -/
def placesFrom (before : List Char) : List Char → List (List Char × Char)
  | [] => []
  | c :: rest => (before, c) :: placesFrom (before ++ [c]) rest

/-- The characters of a text, each with the part of the text before it. -/
def places (cs : List Char) : List (List Char × Char) :=
  placesFrom [] cs

theorem placesFrom_append (before xs ys : List Char) :
    placesFrom before (xs ++ ys) = placesFrom before xs ++ placesFrom (before ++ xs) ys := by
  induction xs generalizing before with
  | nil => simp [placesFrom]
  | cons x xs ih => simp [placesFrom, ih]

theorem places_append (xs ys : List Char) : places (xs ++ ys) = places xs ++ placesFrom xs ys :=
  placesFrom_append [] xs ys

theorem places_concat (cs : List Char) (c : Char) : places (cs ++ [c]) = places cs ++ [(cs, c)] :=
  places_append cs [c]

/-! ## Structural braces -/

/-- A brace that no backslash stands right before. -/
def isStructural (before : List Char) (c : Char) : Bool :=
  isBrace c && before.getLast? != some '\\'

/-- The structural braces of a text, in order. -/
def structural (cs : List Char) : List Char :=
  ((places cs).filter fun p => isStructural p.1 p.2).map Prod.snd

/-- How many more structural braces of a text open than close. -/
def nesting (cs : List Char) : Int :=
  surplus (structural cs)

theorem isBrace_backslash : isBrace '\\' = false := rfl

theorem isBlank_of_isBrace (h : isBrace c = true) : Text.isBlank c = false := by
  simp only [isBrace, Bool.or_eq_true, beq_iff_eq] at h
  rcases h with rfl | rfl <;> rfl

theorem isBrace_of_isBlank (h : Text.isBlank c = true) : isBrace c = false := by
  rw [← Bool.not_eq_true]
  intro hb
  rw [isBlank_of_isBrace hb] at h
  cases h

theorem isStructural_of_isBrace_eq_false (h : isBrace c = false) (before : List Char) :
    isStructural before c = false := by
  rw [isStructural, h, Bool.false_and]

theorem isStructural_of_isBrace (hb : isBrace c = true) (h : before.getLast? ≠ some '\\') :
    isStructural before c = true := by
  unfold isStructural
  rw [hb, bne_iff_ne.mpr h]
  rfl

/-- A backslash right before a character leaves it no structure. -/
theorem isStructural_hidden (before : List Char) (c : Char) :
    isStructural (before ++ ['\\']) c = false := by
  simp [isStructural]

theorem structural_concat (cs : List Char) (c : Char) :
    structural (cs ++ [c]) = structural cs ++ if isStructural cs c then [c] else [] := by
  rw [structural, places_concat, List.filter_append, List.map_append]
  cases h : isStructural cs c <;> simp [structural, h]

theorem surplus_concat (cs : List Char) (c : Char) :
    surplus (cs ++ [c]) = surplus cs + weight c := by
  induction cs with
  | nil => rw [List.nil_append, surplus_cons, Int.add_comm]
  | cons d rest ih => rw [List.cons_append, surplus_cons, surplus_cons, ih]; omega

theorem nesting_structural (h : isStructural cs c = true) :
    nesting (cs ++ [c]) = nesting cs + weight c := by
  rw [nesting, structural_concat, if_pos h, surplus_concat]
  rfl

theorem nesting_plain (h : isStructural cs c = false) : nesting (cs ++ [c]) = nesting cs := by
  rw [nesting, structural_concat, h]
  simp [nesting]

theorem nesting_pair (before : List Char) (c : Char) :
    nesting (before ++ ['\\'] ++ [c]) = nesting before := by
  rw [nesting_plain (isStructural_hidden before c),
    nesting_plain (isStructural_of_isBrace_eq_false isBrace_backslash before)]

/-! ## Marks -/

/-- The marks that reading leaves of a place. -/
def marksAt (p : List Char × Char) : List Mark :=
  if isStructural p.1 p.2 then []
  else if Text.isBlank p.2 then [.gap] else [.glyph ⟨p.2, (nesting p.1).toNat⟩]

/-- The marks that reading leaves of a text, place by place. -/
def marksOf (cs : List Char) : List Mark :=
  (places cs).flatMap marksAt

theorem marksOf_concat (cs : List Char) (c : Char) :
    marksOf (cs ++ [c]) = marksOf cs ++ marksAt (cs, c) := by
  simp [marksOf, places_concat]

theorem marksOf_structural (h : isStructural cs c = true) : marksOf (cs ++ [c]) = marksOf cs := by
  rw [marksOf_concat, marksAt, if_pos h, List.append_nil]

theorem marksOf_plain (h : isStructural cs c = false) :
    marksOf (cs ++ [c]) = marksOf cs ++
      [if Text.isBlank c then .gap else .glyph ⟨c, (nesting cs).toNat⟩] := by
  rw [marksOf_concat, marksAt, h]
  cases Text.isBlank c <;> rfl

/-- A hidden brace is as visible as the backslash before it. -/
theorem marksOf_pair (hb : isBrace c = true) (before : List Char) :
    marksOf (before ++ ['\\'] ++ [c]) = marksOf before ++
      [.glyph ⟨'\\', (nesting before).toNat⟩, .glyph ⟨c, (nesting before).toNat⟩] := by
  have hplain : isStructural before '\\' = false :=
    isStructural_of_isBrace_eq_false isBrace_backslash before
  have hvisible : Text.isBlank '\\' = false := rfl
  rw [marksOf_plain (isStructural_hidden before c), marksOf_plain hplain, nesting_plain hplain,
    isBlank_of_isBrace hb, hvisible, List.append_assoc]
  rfl

/-! ## Moves of the reading -/

theorem readMarks_open :
    readMarks depth column ('{' :: rest) = readMarks (depth + 1) (column + 1) rest := by
  rw [readMarks]

theorem readMarks_close :
    readMarks (depth + 1) column ('}' :: rest) = readMarks depth (column + 1) rest := by
  rw [readMarks]

theorem readMarks_stray :
    readMarks 0 column ('}' :: rest) = ([], some (.prematureClose column)) := by
  rw [readMarks]

/-! ## Reading a part -/

/-- Reading a text goes over its part `before`, leaves the marks of that part, and is then at the
rest, the nesting being its depth. -/
def ReadsTo (before rest : List Char) : Prop :=
  readMarks 0 1 (before ++ rest) =
    (readMarks (nesting before).toNat (before.length + 1) rest).map (marksOf before ++ ·) id

theorem readsTo_plain (h : ReadsTo before (c :: rest)) (hc : StandsAlone c rest) :
    ReadsTo (before ++ [c]) rest := by
  have hplain : isStructural before c = false := isStructural_of_isBrace_eq_false hc.1 before
  rw [ReadsTo, List.append_assoc, List.singleton_append, h, readMarks_plain hc,
    marksOf_plain hplain, nesting_plain hplain, List.length_append]
  simp [Prod.map]

theorem readsTo_pair (h : ReadsTo before ('\\' :: c :: rest)) (hb : isBrace c = true) :
    ReadsTo (before ++ ['\\'] ++ [c]) rest := by
  rw [ReadsTo, List.append_assoc, List.append_assoc, List.singleton_append, List.singleton_append,
    h, readMarks_pair hb, marksOf_pair hb, nesting_pair]
  simp [Prod.map]

/-- A structural brace opens or closes a level, of which one must be open then. -/
theorem readsTo_structural (h : ReadsTo before (c :: rest)) (hc : isStructural before c = true)
    (hbefore : 0 ≤ nesting before) (hafter : 0 ≤ nesting (before ++ [c])) :
    ReadsTo (before ++ [c]) rest := by
  rw [nesting_structural hc] at hafter
  rw [ReadsTo, List.append_assoc, List.singleton_append, h, marksOf_structural hc,
    nesting_structural hc, List.length_append]
  have hb : c = '{' ∨ c = '}' := by
    simp only [isStructural, isBrace, Bool.and_eq_true, Bool.or_eq_true, beq_iff_eq] at hc
    exact hc.1
  rcases hb with rfl | rfl
  · have hopens : weight '{' = 1 := rfl
    have hdepth : (nesting before + 1).toNat = (nesting before).toNat + 1 := by omega
    rw [readMarks_open, hopens, hdepth]
    rfl
  · have hcloses : weight '}' = -1 := rfl
    rw [hcloses] at hafter ⊢
    have hdepth : (nesting before).toNat = (nesting before + -1).toNat + 1 := by omega
    rw [hdepth, readMarks_close]
    rfl

/-- The nesting is negative nowhere in the text. -/
def Steady (cs : List Char) : Prop :=
  ∀ part, part <+: cs → 0 ≤ nesting part

theorem Steady.part (h : Steady cs) {part : List Char} (hp : part <+: cs) : Steady part :=
  fun shorter hs => h shorter (hs.trans hp)

theorem steady_concat : Steady (cs ++ [c]) ↔ Steady cs ∧ 0 ≤ nesting (cs ++ [c]) := by
  constructor
  · exact fun h => ⟨h.part (List.prefix_append cs [c]), h _ List.prefix_rfl⟩
  · rintro ⟨h, hwhole⟩ part hp
    rcases List.prefix_concat_iff.mp hp with rfl | hp
    · exact hwhole
    · exact h part hp

/-- The text is cut right between a backslash and the brace that it hides. -/
def CutsPair (before rest : List Char) : Prop :=
  before.getLast? = some '\\' ∧ ∃ b ∈ rest.head?, isBrace b = true

theorem not_cutsPair_cons (hc : isBrace c = false) (before rest : List Char) :
    ¬ CutsPair before (c :: rest) := by
  rintro ⟨-, b, hmem, hbrace⟩
  obtain rfl := Option.some.inj hmem
  rw [hc] at hbrace
  cases hbrace

/-- Reading goes over every steady part, unless the part ends inside a move. -/
theorem Steady.readsTo (h : Steady before) (hs : ¬ CutsPair before rest) : ReadsTo before rest := by
  -- A backslash with its brace is one move, so the induction is on the length of the part.
  induction hn : before.length using Nat.strong_induction_on generalizing before rest with
  | _ n ih =>
    subst hn
    rcases List.eq_nil_or_concat' before with rfl | ⟨front, c, rfl⟩
    · rfl
    · obtain ⟨hfront, hwhole⟩ := steady_concat.mp h
      have hshort : front.length < (front ++ [c]).length := by simp
      cases hb : isBrace c with
      | false =>
          refine readsTo_plain (ih _ hshort hfront (not_cutsPair_cons hb front rest) rfl) ⟨hb, ?_⟩
          rintro rfl b hmem
          rw [Bool.eq_false_iff]
          exact fun hbrace => hs ⟨by simp, b, hmem, hbrace⟩
      | true =>
          by_cases hlast : front.getLast? = some '\\'
          · obtain ⟨shorter, rfl⟩ := List.getLast?_eq_some_iff.mp hlast
            have hless : shorter.length < (shorter ++ ['\\'] ++ [c]).length := by simp
            exact readsTo_pair (ih _ hless (hfront.part (List.prefix_append shorter _))
              (not_cutsPair_cons isBrace_backslash shorter (c :: rest)) rfl) hb
          · exact readsTo_structural (ih _ hshort hfront (fun hpair => hlast hpair.1) rfl)
              (isStructural_of_isBrace hb hlast) (hfront front List.prefix_rfl) hwhole

end BibAudit.Value
