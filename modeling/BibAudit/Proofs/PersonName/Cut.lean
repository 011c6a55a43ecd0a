/-
# BibAudit.Proofs.PersonName.Cut — names between the words `and`.

A list of names is cut at the words `and` that stand outside all braces.  Where braces match, so they do
in every name that comes of it, and each `and` that is left in a name stands in braces; joined by `and`
the names are the words again.  There is one such way to cut the words only, so a list that was written
as such names is cut into them.

Names know no hidden braces: a backslash in front of a brace changes nothing here.
-/
import BibAudit.PersonName
import BibAudit.Proofs.Text.Words
import BibAudit.Proofs.Value.Brackets

namespace BibAudit.PersonName

open Value (isBrace surplus weight surplus_nil surplus_append surplus_cons surplus_filter)

variable {cs v w rest : List Char} {depth : Nat} {name ws : List (List Char)}
variable {names : List (List (List Char))}

/-! ## Levels -/

/-- The word that stands between names. -/
def conjunction : List Char := "and".toList

/-- The braces of the text match. -/
def Matched (cs : List Char) : Prop :=
  Value.Balanced (cs.filter isBrace)

/-- With this many braces open in front, no part closes more than is open. -/
def Level (depth : Nat) (cs : List Char) : Prop :=
  ∀ part, part <+: cs → 0 ≤ depth + surplus part

/-- Levels may be counted without characters that are no braces. -/
theorem level_filter (p : Char → Bool) (hopen : p '{' = true) (hclose : p '}' = true) :
    Level depth (cs.filter p) ↔ Level depth cs := by
  constructor
  · intro hlevel part hpart
    rw [← surplus_filter p hopen hclose part]
    exact hlevel _ (hpart.filter p)
  · rintro hlevel part ⟨tail, htail⟩
    obtain ⟨front, back, rfl, rfl, -⟩ := List.filter_eq_append_iff.mp htail.symm
    rw [surplus_filter p hopen hclose]
    exact hlevel front (List.prefix_append front back)

theorem matched_iff : Matched cs ↔ Level 0 cs ∧ surplus cs = 0 := by
  have hlevel : (∀ part, part <+: cs.filter isBrace → 0 ≤ surplus part) ↔ Level 0 cs := by
    rw [← level_filter isBrace rfl rfl]
    exact forall₂_congr fun part _ => by rw [Int.ofNat_zero, Int.zero_add]
  rw [Matched, Value.balanced_iff fun c hc => (List.mem_filter.mp hc).2, hlevel,
    surplus_filter isBrace rfl rfl]

theorem depthAfter_cons (depth : Nat) (c : Char) (rest : List Char) :
    depthAfter depth (c :: rest) = depthAfter
      (if c = '{' then depth + 1 else if c = '}' then depth - 1 else depth) rest := by
  simp only [depthAfter, List.foldl_cons, beq_iff_eq]

/-- Where nothing closes more than is open, the open braces are counted exactly. -/
theorem depthAfter_eq (h : Level depth w) : (depthAfter depth w : Int) = depth + surplus w := by
  induction w generalizing depth with
  | nil => exact (Int.add_zero _).symm
  | cons c rest ih =>
      have hstep : ∀ after : Nat, (after : Int) = depth + weight c →
          (depthAfter after rest : Int) = depth + surplus (c :: rest) := by
        intro after hafter
        have hrest : Level after rest := by
          intro part hp
          have hlevel := h (c :: part) ((List.prefix_cons_inj c).mpr hp)
          rw [surplus_cons] at hlevel
          omega
        rw [ih hrest, surplus_cons]
        omega
      have hfirst := h [c] ⟨rest, rfl⟩
      rw [surplus_cons, surplus_nil] at hfirst
      rw [depthAfter_cons]
      split
      · next hopen =>
          subst hopen
          exact hstep (depth + 1) rfl
      · next hopen =>
          split
          · next hclose =>
              subst hclose
              have hcloses : weight '}' = -1 := rfl
              exact hstep (depth - 1) (by omega)
          · next hclose => exact hstep depth (by simp [weight, hopen, hclose])

/-- What is open behind a first part is open in front of the second one. -/
theorem level_append :
    Level depth (v ++ w) ↔ Level depth v ∧ Level (depthAfter depth v) w := by
  constructor
  · intro h
    have hv : Level depth v := fun part hp => h part (hp.trans (List.prefix_append v w))
    refine ⟨hv, fun part hp => ?_⟩
    have hlevel := h (v ++ part) ((List.prefix_append_right_inj v).mpr hp)
    rw [surplus_append] at hlevel
    rw [depthAfter_eq hv]
    omega
  · rintro ⟨hv, hw⟩ part hp
    rcases List.prefix_or_prefix_of_prefix hp (List.prefix_append v w) with hp | ⟨inner, rfl⟩
    · exact hv part hp
    · have hlevel := hw inner ((List.prefix_append_right_inj v).mp hp)
      rw [depthAfter_eq hv] at hlevel
      rw [surplus_append]
      omega

/-! ## Names -/

/-- With this many braces open in front, the name closes them all, and each `and` in it stands in
braces. -/
structure Closes (depth : Nat) (name : List (List Char)) : Prop where
  level : Level depth name.flatten
  closed : depth + surplus name.flatten = 0
  inside : ∀ before after, name = before ++ conjunction :: after →
    0 < depth + surplus before.flatten

/-- The words are these names with an `and` between each two. -/
structure IsSplit (ws : List (List Char)) (names : List (List (List Char))) : Prop where
  filled : names ≠ []
  joined : [conjunction].intercalate names = ws
  closes : ∀ name ∈ names, Closes 0 name

theorem closes_nil : Closes depth [] ↔ depth = 0 := by
  constructor
  · intro h
    have hclosed := h.closed
    rw [List.flatten_nil, surplus_nil] at hclosed
    omega
  · rintro rfl
    refine ⟨fun part hp => ?_, rfl, fun before after heq => ?_⟩
    · rw [List.prefix_nil.mp hp]
      exact Int.le_refl 0
    · simp at heq

theorem closes_cons : Closes depth (w :: name) ↔
    Level depth w ∧ (w = conjunction → 0 < depth) ∧ Closes (depthAfter depth w) name := by
  constructor
  · intro h
    have hlevel := h.level
    have hclosed := h.closed
    rw [List.flatten_cons, level_append] at hlevel
    rw [List.flatten_cons, surplus_append] at hclosed
    have hdepth := depthAfter_eq hlevel.1
    refine ⟨hlevel.1, ?_, hlevel.2, by omega, ?_⟩
    · rintro rfl
      have hinside := h.inside [] name rfl
      rw [List.flatten_nil, surplus_nil] at hinside
      omega
    · rintro before after rfl
      have hinside := h.inside (w :: before) after rfl
      rw [List.flatten_cons, surplus_append] at hinside
      omega
  · rintro ⟨hlevel, hand, hname⟩
    have hdepth := depthAfter_eq hlevel
    have hclosed := hname.closed
    refine ⟨?_, ?_, ?_⟩
    · rw [List.flatten_cons, level_append]
      exact ⟨hlevel, hname.level⟩
    · rw [List.flatten_cons, surplus_append]
      omega
    · intro before after heq
      rcases List.cons_eq_append_iff.mp heq with ⟨rfl, hcons⟩ | ⟨front, rfl, hrest⟩
      · obtain ⟨hw, -⟩ := List.cons.inj hcons
        rw [List.flatten_nil, surplus_nil]
        have hpos := hand hw.symm
        omega
      · have hinside := hname.inside front after hrest
        rw [List.flatten_cons, surplus_append]
        omega

/-! ## Cutting -/

theorem cutAtAnd_conjunction (rest : List (List Char)) :
    cutAtAnd 0 (conjunction :: rest) = [] :: cutAtAnd 0 rest := rfl

theorem cutAtAnd_word {first : List (List Char)} (h : w = conjunction → 0 < depth)
    (hrest : cutAtAnd (depthAfter depth w) ws = first :: names) :
    cutAtAnd depth (w :: ws) = (w :: first) :: names := by
  have hword : (depth = 0 && w == "and".toList) = false := by
    rw [← Bool.not_eq_true, Bool.and_eq_true, decide_eq_true_eq, beq_iff_eq]
    rintro ⟨rfl, hw⟩
    exact Nat.lt_irrefl 0 (h hw)
  rw [cutAtAnd, hword, if_neg Bool.false_ne_true, hrest]

/-- A name that closes is read to its end. -/
theorem cutAtAnd_name {first : List (List Char)} (h : Closes depth name)
    (hrest : cutAtAnd 0 ws = first :: names) :
    cutAtAnd depth (name ++ ws) = (name ++ first) :: names := by
  induction name generalizing depth with
  | nil =>
      obtain rfl := closes_nil.mp h
      exact hrest
  | cons w rest ih =>
      obtain ⟨-, hand, hname⟩ := closes_cons.mp h
      exact cutAtAnd_word hand (ih hname)

/-- Names that are joined by `and` are found again. -/
theorem IsSplit.cutAtAnd_eq (h : IsSplit ws names) : cutAtAnd 0 ws = names := by
  obtain ⟨hfilled, rfl, hcloses⟩ := h
  induction names with
  | nil => exact absurd rfl hfilled
  | cons name rest ih =>
      obtain ⟨hname, hrest⟩ := List.forall_mem_cons.mp hcloses
      cases rest with
      | nil =>
          have hend : cutAtAnd 0 [] = [] :: [] := rfl
          have hcut := cutAtAnd_name hname hend
          rw [List.append_nil] at hcut
          rw [List.intercalate_singleton]
          exact hcut
      | cons next more =>
          have hbehind := (cutAtAnd_conjunction _).trans
            (congrArg ([] :: ·) (ih (List.cons_ne_nil next more) hrest))
          have hcut := cutAtAnd_name hname hbehind
          rwa [List.append_nil] at hcut

/-- Words whose braces match are cut into names in each of which they do. -/
theorem exists_closes (hlevel : Level depth ws.flatten) (hclosed : depth + surplus ws.flatten = 0) :
    ∃ name names, Closes depth name ∧ (∀ other ∈ names, Closes 0 other) ∧
      [conjunction].intercalate (name :: names) = ws := by
  induction ws generalizing depth with
  | nil =>
      rw [List.flatten_nil, surplus_nil] at hclosed
      exact ⟨[], [], closes_nil.mpr (by omega), by simp, rfl⟩
  | cons w rest ih =>
      rw [List.flatten_cons, level_append] at hlevel
      rw [List.flatten_cons, surplus_append] at hclosed
      have hdepth := depthAfter_eq hlevel.1
      obtain ⟨name, names, hname, hnames, hjoined⟩ := ih hlevel.2 (by omega)
      by_cases hcut : w = conjunction ∧ depth = 0
      · -- The word ends a name that has nothing in it so far.
        obtain ⟨rfl, rfl⟩ := hcut
        have hzero : depthAfter 0 conjunction = 0 := rfl
        rw [hzero] at hname
        refine ⟨[], name :: names, closes_nil.mpr rfl,
          List.forall_mem_cons.mpr ⟨hname, hnames⟩, ?_⟩
        rw [List.intercalate_cons_cons, hjoined]
        rfl
      · refine ⟨w :: name, names, closes_cons.mpr ⟨hlevel.1, ?_, hname⟩, hnames, ?_⟩
        · intro hw
          have hne : depth ≠ 0 := fun hzero => hcut ⟨hw, hzero⟩
          omega
        · cases names with
          | nil =>
              rw [List.intercalate_singleton] at hjoined ⊢
              rw [hjoined]
          | cons next more =>
              rw [List.intercalate_cons_cons] at hjoined ⊢
              rw [← hjoined]
              rfl

theorem matched_words : Matched (Text.words cs).flatten ↔ Matched cs := by
  rw [matched_iff, matched_iff, Text.flatten_words, level_filter (fun c => !Text.isBlank c) rfl rfl,
    surplus_filter (fun c => !Text.isBlank c) rfl rfl]

/-- A text whose braces match has one way to be cut, and is cut so. -/
theorem isSplit_cutAtAnd (h : Matched cs) :
    IsSplit (Text.words cs) (cutAtAnd 0 (Text.words cs)) := by
  obtain ⟨hlevel, hclosed⟩ := matched_iff.mp (matched_words.mpr h)
  obtain ⟨name, names, hname, hnames, hjoined⟩ := exists_closes hlevel (by omega)
  have hsplit : IsSplit (Text.words cs) (name :: names) :=
    ⟨List.cons_ne_nil name names, hjoined, List.forall_mem_cons.mpr ⟨hname, hnames⟩⟩
  rwa [hsplit.cutAtAnd_eq]

/-! ## Lists -/

/-- A name that is read: it is not empty, not `others`, and has no braces at its ends. -/
def isRead (name : List Char) : Bool :=
  !name.isEmpty && name != "others".toList && !isBraced name

theorem isRead_iff {name : List Char} :
    isRead name = true ↔ name ≠ [] ∧ name ≠ "others".toList ∧ isBraced name = false := by
  simp only [isRead, Bool.and_eq_true, Bool.not_eq_true', List.isEmpty_eq_false_iff, bne_iff_ne,
    and_assoc, ne_eq]

theorem IsSplit.splitNames_eq (h : IsSplit (Text.words cs) names) :
    splitNames cs = (names.map [' '].intercalate).filter isRead := by
  rw [splitNames, h.cutAtAnd_eq]
  rfl

/-- Braces or quotes around a list of names. -/
def IsEnclosure (opening closing : Char) : Prop :=
  (opening = '{' ∧ closing = '}') ∨ (opening = '"' ∧ closing = '"')

/-- An enclosure is taken off, and the names in it are read one by one. -/
theorem parseList_enclosed {opening closing : Char} (h : IsEnclosure opening closing)
    (content : List Char) : parseList (String.ofList (opening :: (content ++ [closing]))) =
      ((splitNames content).map parse).filter fun n => !n.first.isEmpty := by
  rw [parseList, String.toList_ofList]
  rcases h with ⟨rfl, rfl⟩ | ⟨rfl, rfl⟩
  · have htrim : Text.trim ('{' :: (content ++ ['}'])) = '{' :: (content ++ ['}']) :=
      (Text.tight_between (by decide) (by decide) content).trim_eq
    simp [htrim, inside?]
  · have htrim : Text.trim ('"' :: (content ++ ['"'])) = '"' :: (content ++ ['"']) :=
      (Text.tight_between (by decide) (by decide) content).trim_eq
    simp [htrim, inside?]

end BibAudit.PersonName
