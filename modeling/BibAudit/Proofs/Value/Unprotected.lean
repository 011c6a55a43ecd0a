/-
# BibAudit.Proofs.Value.Unprotected — which reference words are reported.

An occurrence of a word in a token is told as a way to cut the token in three: what stands before, a
run that spells the word, and what stands behind, neither neighbour of the run being a letter or a
number.  The search goes over the places of a token one by one and reports a word if, at some place,
one character of the run is outside all braces.  So other occurrences, protected or not, are of no
matter to the report.
-/
import BibAudit.Value.Unprotected
import Mathlib.Data.List.Forall2
import Mathlib.Order.Bounds.Basic

namespace BibAudit.Value

variable {word : List Char} {gs front run back : List Glyph} {before : Option Char} {t : Token}
  {s : Scanned} {w : String} {reference : List String}

/-! ## Depth of a run -/

/-- A stretch is as deep as its shallowest character. -/
theorem isLeast_leastDepth (h : gs ≠ []) : IsLeast {d | ∃ g ∈ gs, g.depth = d} (leastDepth gs) := by
  induction gs with
  | nil => exact absurd rfl h
  | cons g rest ih =>
      have hdepths : {d | ∃ x ∈ g :: rest, x.depth = d} =
          insert g.depth {d | ∃ x ∈ rest, x.depth = d} := by
        ext d
        simp [eq_comm]
      rw [hdepths]
      cases rest with
      | nil =>
          show IsLeast (insert g.depth _) g.depth
          simp
      | cons next more =>
          show IsLeast _ (min g.depth (leastDepth (next :: more)))
          exact (ih (List.cons_ne_nil next more)).insert g.depth

/-- A stretch counts as unprotected exactly if one of its characters is outside all braces. -/
theorem leastDepth_eq_zero (h : gs ≠ []) : leastDepth gs = 0 ↔ ∃ g ∈ gs, g.depth = 0 := by
  obtain ⟨hmem, hleast⟩ := isLeast_leastDepth h
  constructor
  · intro hzero
    exact hzero ▸ hmem
  · intro hexposed
    exact Nat.le_zero.mp (hleast hexposed)

/-! ## Occurrences -/

/-- The glyphs spell the word, in either case. -/
def Spells (run : List Glyph) (word : List Char) : Prop :=
  List.Forall₂ (fun g c => Text.lowerChar g.char = Text.lowerChar c) run word

/-- Between two parts of a token stands a run that spells the word, and neither neighbour is a letter
or a number. -/
structure Occurrence (word : List Char) (front run back : List Glyph) : Prop where
  spells : Spells run word
  before : ∀ g ∈ front.getLast?, Text.isAlphanumeric g.char = false
  behind : ∀ g ∈ back.head?, Text.isAlphanumeric g.char = false

/-- The token holds an occurrence of the word with a character outside all braces. -/
def HoldsUnprotected (word : List Char) (t : Token) : Prop :=
  ∃ front run back, t = front ++ run ++ back ∧ Occurrence word front run back ∧
    ∃ g ∈ run, g.depth = 0

theorem Spells.ne_nil (h : Spells run word) (hw : word ≠ []) : run ≠ [] := by
  rintro rfl
  exact hw (List.forall₂_nil_left_iff.mp h)

theorem spelledAt_iff (word : List Char) (gs : List Glyph) :
    spelledAt word gs = true ↔ Spells (gs.take word.length) word := by
  unfold Spells
  induction word generalizing gs with
  | nil => simp [spelledAt]
  | cons c word ih =>
      cases gs with
      | nil => simp [spelledAt]
      | cons g rest =>
          rw [spelledAt, Bool.and_eq_true, ih, List.length_cons, List.take_succ_cons,
            List.forall₂_cons]
          unfold sameLetter
          rw [beq_iff_eq]

theorem boundsWord_iff (neighbour : Option Glyph) :
    boundsWord (neighbour.map Glyph.char) = true ↔
      ∀ g ∈ neighbour, Text.isAlphanumeric g.char = false := by
  cases neighbour <;> simp [boundsWord]

/-- The search at one place. -/
theorem unprotectedAt_iff (hw : word ≠ []) (before : Option Char) (gs : List Glyph) :
    unprotectedAt word before gs = true ↔ ∃ run back, gs = run ++ back ∧ Spells run word ∧
      boundsWord before = true ∧ (∀ g ∈ back.head?, Text.isAlphanumeric g.char = false) ∧
        ∃ g ∈ run, g.depth = 0 := by
  have hdepth : ∀ {run : List Glyph}, Spells run word →
      ((leastDepth run == 0) = true ↔ ∃ g ∈ run, g.depth = 0) := by
    intro run hspells
    rw [beq_iff_eq]
    exact leastDepth_eq_zero (hspells.ne_nil hw)
  unfold unprotectedAt
  simp only [Bool.and_eq_true, spelledAt_iff, boundsWord_iff]
  constructor
  · rintro ⟨⟨⟨hspells, hbefore⟩, hbehind⟩, hleast⟩
    exact ⟨_, _, (List.take_append_drop word.length gs).symm, hspells, hbefore, hbehind,
      (hdepth hspells).mp hleast⟩
  · rintro ⟨run, back, rfl, hspells, hbefore, hbehind, hzero⟩
    have hlength : word.length = run.length := (List.Forall₂.length_eq hspells).symm
    rw [hlength, List.take_left, List.drop_left]
    exact ⟨⟨⟨hspells, hbefore⟩, hbehind⟩, (hdepth hspells).mpr hzero⟩

/-- The search over all places, `before` being the character in front of the glyphs. -/
theorem unprotectedFrom_iff (hw : word ≠ []) (before : Option Char) (gs : List Glyph) :
    unprotectedFrom word before gs = true ↔ ∃ front run back, gs = front ++ run ++ back ∧
      Spells run word ∧ boundsWord ((front.getLast?.map Glyph.char).or before) = true ∧
        (∀ g ∈ back.head?, Text.isAlphanumeric g.char = false) ∧ ∃ g ∈ run, g.depth = 0 := by
  induction gs generalizing before with
  | nil =>
      constructor
      · intro h
        cases h
      · rintro ⟨front, run, back, hnil, hspells, -⟩
        obtain ⟨hrun, -⟩ := List.append_eq_nil_iff.mp hnil.symm
        exact absurd (List.append_eq_nil_iff.mp hrun).2 (hspells.ne_nil hw)
  | cons g rest ih =>
      -- In front of a later place stands a glyph of the list, at least this one.
      have hshift : ∀ front : List Glyph, ((g :: front).getLast?.map Glyph.char).or before =
          (front.getLast?.map Glyph.char).or (some g.char) := by
        intro front
        rw [List.getLast?_cons]
        cases front.getLast? <;> rfl
      rw [unprotectedFrom, Bool.or_eq_true, unprotectedAt_iff hw, ih]
      constructor
      · rintro (⟨run, back, hsplit, hfound⟩ | ⟨front, run, back, rfl, hspells, hbefore, hfound⟩)
        · exact ⟨[], run, back, hsplit, hfound⟩
        · refine ⟨g :: front, run, back, rfl, hspells, ?_, hfound⟩
          rw [hshift]
          exact hbefore
      · rintro ⟨front, run, back, hsplit, hspells, hbefore, hfound⟩
        cases front with
        | nil => exact .inl ⟨run, back, hsplit, hspells, hbefore, hfound⟩
        | cons first front =>
            obtain ⟨rfl, rfl⟩ := List.cons.inj hsplit
            rw [hshift] at hbefore
            exact .inr ⟨front, run, back, rfl, hspells, hbefore, hfound⟩

/-- A token holds no unprotected occurrence of the empty word. -/
theorem HoldsUnprotected.ne_nil (h : HoldsUnprotected word t) : word ≠ [] := by
  obtain ⟨front, run, back, -, hoccurs, g, hg, -⟩ := h
  rintro rfl
  have hempty : run = [] := List.forall₂_nil_right_iff.mp hoccurs.spells
  rw [hempty] at hg
  cases hg

theorem holdsUnprotected_iff (hw : word ≠ []) (t : Token) :
    HoldsUnprotected word t ↔ unprotectedFrom word none t = true := by
  rw [unprotectedFrom_iff hw]
  simp only [Option.or_none, boundsWord_iff]
  constructor
  · rintro ⟨front, run, back, hsplit, hoccurs, hzero⟩
    exact ⟨front, run, back, hsplit, hoccurs.spells, hoccurs.before, hoccurs.behind, hzero⟩
  · rintro ⟨front, run, back, hsplit, hspells, hbefore, hbehind, hzero⟩
    exact ⟨front, run, back, hsplit, ⟨hspells, hbefore, hbehind⟩, hzero⟩

instance (word : List Char) (t : Token) : Decidable (HoldsUnprotected word t) :=
  decidable_of_iff (word ≠ [] ∧ unprotectedFrom word none t = true)
    ⟨fun h => (holdsUnprotected_iff h.1 t).mpr h.2,
      fun h => ⟨h.ne_nil, (holdsUnprotected_iff h.ne_nil t).mp h⟩⟩

/-! ## Reports -/

/-- The token that is named is the first one with an unprotected occurrence. -/
theorem unprotectedIn?_eq_some : unprotectedIn? s word = some t ↔
    ∃ earlier later, s.tokens = earlier ++ t :: later ∧ HoldsUnprotected word t ∧
      ∀ u ∈ earlier, ¬ HoldsUnprotected word u := by
  by_cases hw : word = []
  · subst hw
    constructor
    · intro h
      cases h
    · rintro ⟨earlier, later, -, hholds, -⟩
      exact absurd rfl hholds.ne_nil
  · have hfind : unprotectedIn? s word = s.tokens.find? (unprotectedFrom word none) := by
      unfold unprotectedIn?
      rw [List.isEmpty_eq_false_iff.mpr hw]
      rfl
    rw [hfind, List.find?_eq_some_iff_append]
    simp only [holdsUnprotected_iff hw, Bool.not_eq_true', Bool.not_eq_true]
    constructor
    · rintro ⟨hholds, earlier, later, hsplit, hnone⟩
      exact ⟨earlier, later, hsplit, hholds, hnone⟩
    · rintro ⟨earlier, later, hsplit, hholds, hnone⟩
      exact ⟨hholds, earlier, later, hsplit, hnone⟩

theorem isSome_unprotectedIn? :
    (unprotectedIn? s word).isSome = true ↔ ∃ t ∈ s.tokens, HoldsUnprotected word t := by
  constructor
  · intro h
    obtain ⟨t, ht⟩ := Option.isSome_iff_exists.mp h
    obtain ⟨earlier, later, hsplit, hholds, -⟩ := unprotectedIn?_eq_some.mp ht
    exact ⟨t, by simp [hsplit], hholds⟩
  · rintro ⟨t, ht, hholds⟩
    have hw := hholds.ne_nil
    unfold unprotectedIn?
    rw [List.isEmpty_eq_false_iff.mpr hw]
    exact List.find?_isSome.mpr ⟨t, ht, (holdsUnprotected_iff hw t).mp hholds⟩

theorem map_word_findUnprotected (s : Scanned) (reference : List String) :
    (findUnprotected s reference).map Unprotected.word =
      reference.filter fun w => (unprotectedIn? s w.toList).isSome := by
  unfold findUnprotected
  induction reference with
  | nil => rfl
  | cons w rest ih =>
      cases h : unprotectedIn? s w.toList with
      | none =>
          rw [List.filterMap_cons_none (by rw [h]; rfl), List.filter_cons_of_neg (by rw [h]; simp)]
          exact ih
      | some t =>
          rw [List.filterMap_cons_some (by rw [h]; rfl), List.filter_cons_of_pos (by rw [h]; rfl),
            List.map_cons, ih]

theorem mem_findUnprotected {u : Unprotected} (hu : u ∈ findUnprotected s reference) :
    ∃ t, unprotectedIn? s u.word.toList = some t ∧ u.token = t.text := by
  obtain ⟨w, -, hw⟩ := List.mem_filterMap.mp hu
  obtain ⟨t, ht, rfl⟩ := Option.map_eq_some_iff.mp hw
  exact ⟨t, ht, rfl⟩

/-- The words reported are, in the order of the reference and as often as they stand there, those that
are not empty and have in some token an occurrence with a character outside all braces.  The token
named with a word is the first such token.  A word that is protected wherever it occurs is not
reported; a word with an unprotected occurrence is, whatever other occurrences there are. -/
theorem findUnprotected_exact (s : Scanned) (reference : List String) :
    (findUnprotected s reference).map Unprotected.word =
        reference.filter (fun w => w ≠ "" ∧ ∃ t ∈ s.tokens, HoldsUnprotected w.toList t) ∧
      (∀ u ∈ findUnprotected s reference, ∃ earlier t later, s.tokens = earlier ++ t :: later ∧
        u.token = t.text ∧ HoldsUnprotected u.word.toList t ∧
          ∀ v ∈ earlier, ¬ HoldsUnprotected u.word.toList v) ∧
      (∀ w : String, (∀ t ∈ s.tokens, ∀ front run back, t = front ++ run ++ back →
        Occurrence w.toList front run back → ∀ g ∈ run, 1 ≤ g.depth) →
          ∀ u ∈ findUnprotected s reference, u.word ≠ w) ∧
      (∀ w ∈ reference, ∀ t ∈ s.tokens, ∀ front run back g, t = front ++ run ++ back →
        Occurrence w.toList front run back → g ∈ run → g.depth = 0 →
          ∃ u ∈ findUnprotected s reference, u.word = w) := by
  refine ⟨?_, ?_, ?_, ?_⟩
  · rw [map_word_findUnprotected]
    apply List.filter_congr
    intro w _
    rw [Bool.eq_iff_iff, isSome_unprotectedIn?, decide_eq_true_iff]
    constructor
    · rintro ⟨t, ht, hholds⟩
      refine ⟨?_, t, ht, hholds⟩
      rintro rfl
      exact hholds.ne_nil rfl
    · exact And.right
  · intro u hu
    obtain ⟨t, ht, htext⟩ := mem_findUnprotected hu
    obtain ⟨earlier, later, hsplit, hholds, hnone⟩ := unprotectedIn?_eq_some.mp ht
    exact ⟨earlier, t, later, hsplit, htext, hholds, hnone⟩
  · rintro _ hprotected u hu rfl
    obtain ⟨t, ht, -⟩ := mem_findUnprotected hu
    obtain ⟨earlier, later, hsplit, ⟨front, run, back, hcut, hoccurs, g, hg, hzero⟩, -⟩ :=
      unprotectedIn?_eq_some.mp ht
    have hdeep := hprotected t (by simp [hsplit]) front run back hcut hoccurs g hg
    omega
  · intro w hw t ht front run back g hcut hoccurs hg hzero
    have hreported : w ∈ (findUnprotected s reference).map Unprotected.word := by
      rw [map_word_findUnprotected, List.mem_filter, isSome_unprotectedIn?]
      exact ⟨hw, t, ht, front, run, back, hcut, hoccurs, g, hg, hzero⟩
    exact List.mem_map.mp hreported

/-- A token in which a word stands twice, first protected and then not, and a protected word. -/
def mixedTitle : Scanned := scanContent "\x7bAES\x7d-aes \x7bNASA\x7d".toList

theorem findUnprotected_exact_mixed :
    findUnprotected mixedTitle ["nasa", "Aes", "", "AES"] = [⟨"Aes", "AES-aes"⟩, ⟨"AES", "AES-aes"⟩] ∧
      (∃ earlier t later, mixedTitle.tokens = earlier ++ t :: later ∧ "AES-aes" = t.text ∧
        HoldsUnprotected "Aes".toList t ∧ ∀ v ∈ earlier, ¬ HoldsUnprotected "Aes".toList v) ∧
      (∀ u ∈ findUnprotected mixedTitle ["nasa", "Aes", "", "AES"], u.word ≠ "nasa") ∧
      ∃ u ∈ findUnprotected mixedTitle ["nasa", "Aes", "", "AES"], u.word = "Aes" := by
  have hreports : findUnprotected mixedTitle ["nasa", "Aes", "", "AES"] =
      [⟨"Aes", "AES-aes"⟩, ⟨"AES", "AES-aes"⟩] := by decide +kernel
  have hnasa : ∀ t ∈ mixedTitle.tokens, ¬ HoldsUnprotected "nasa".toList t := by decide +kernel
  have htoken : mixedTitle.tokens.head? = some
      ([⟨'A', 1⟩, ⟨'E', 1⟩, ⟨'S', 1⟩, ⟨'-', 0⟩] ++ [⟨'a', 0⟩, ⟨'e', 0⟩, ⟨'s', 0⟩] ++ []) := by decide
  have hoccurs : Occurrence "Aes".toList [⟨'A', 1⟩, ⟨'E', 1⟩, ⟨'S', 1⟩, ⟨'-', 0⟩]
      [⟨'a', 0⟩, ⟨'e', 0⟩, ⟨'s', 0⟩] [] := by
    refine ⟨.cons (by decide) (.cons (by decide) (.cons (by decide) .nil)), ?_, ?_⟩
    · decide +kernel
    · decide
  obtain ⟨-, hfirst, hprotected, hseen⟩ := findUnprotected_exact mixedTitle ["nasa", "Aes", "", "AES"]
  refine ⟨hreports, hfirst ⟨"Aes", "AES-aes"⟩ (by rw [hreports]; simp), ?_, ?_⟩
  · apply hprotected
    intro t ht front run back hcut hnasaOccurs g hg
    have hdeep : g.depth ≠ 0 := fun hzero =>
      hnasa t ht ⟨front, run, back, hcut, hnasaOccurs, g, hg, hzero⟩
    omega
  · exact hseen "Aes" (by simp) _ (List.mem_of_head? htoken) _ _ _ ⟨'a', 0⟩ rfl hoccurs (by simp) rfl

end BibAudit.Value
