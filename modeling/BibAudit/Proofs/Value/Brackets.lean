/-
# BibAudit.Proofs.Value.Brackets — brace errors are exact.

Reading counts depth and stops at the first brace that closes nothing.  Here the errors it reports are
told without it.  A structural closing brace is stray if as many structural braces open as close
before it; reading ends at the first stray brace, and nowhere else.  A text without one leaves open
what it opens and does not close, and is read without error exactly if its structural braces are a
balanced word of brackets.
-/
import BibAudit.Proofs.Value.Structure
import Mathlib.Order.Bounds.Basic

namespace BibAudit.Value

variable {cs before rest inner u v w : List Char} {c : Char} {depth : Nat}

/-! ## Balanced words -/

/-- A balanced word of brackets: empty, or a group around a balanced word and then another one. -/
inductive Balanced : List Char → Prop
  | nil : Balanced []
  | group {inner rest : List Char} :
      Balanced inner → Balanced rest → Balanced ('{' :: (inner ++ '}' :: rest))

/-- A word that closes `depth` brackets opened before it, and is balanced in between. -/
inductive Closing : Nat → List Char → Prop
  | done {w : List Char} : Balanced w → Closing 0 w
  | close {depth : Nat} {w rest : List Char} :
      Balanced w → Closing depth rest → Closing (depth + 1) (w ++ '}' :: rest)

theorem Closing.group (hi : Balanced inner) (h : Closing depth rest) :
    Closing depth ('{' :: (inner ++ '}' :: rest)) := by
  cases h with
  | done hr => exact .done (.group hi hr)
  | @close depth w rest hw hr =>
      have hsplit : '{' :: (inner ++ '}' :: (w ++ '}' :: rest)) =
          ('{' :: (inner ++ '}' :: w)) ++ '}' :: rest := by simp
      rw [hsplit]
      exact .close (.group hi hw) hr

theorem surplus_nil : surplus [] = 0 := rfl

theorem surplus_append (v w : List Char) : surplus (v ++ w) = surplus v + surplus w := by
  simp only [surplus, List.count_append]
  omega

/-- The braces of a text may be counted without other characters. -/
theorem surplus_filter (p : Char → Bool) (hopen : p '{' = true) (hclose : p '}' = true)
    (cs : List Char) : surplus (cs.filter p) = surplus cs := by
  unfold surplus
  rw [List.count_filter hopen, List.count_filter hclose]

theorem surplus_eq_zero (h : ∀ c ∈ cs, isBrace c = false) : surplus cs = 0 := by
  have hnone : cs.filter isBrace = [] := List.filter_eq_nil_iff.mpr fun c hc => by simp [h c hc]
  rw [← surplus_filter isBrace rfl rfl cs, hnone]
  exact surplus_nil

/-- Below a level that is open, a word that never closes more than is open, and all of it in the end,
closes level by level. -/
theorem closing_of_surplus (hw : ∀ c ∈ w, isBrace c = true)
    (hsteady : ∀ v, v <+: w → 0 ≤ depth + surplus v) (hend : depth + surplus w = 0) :
    Closing depth w := by
  induction w generalizing depth with
  | nil =>
      have hzero : depth = 0 := by
        have hnone : surplus [] = 0 := rfl
        omega
      subst hzero
      exact .done .nil
  | cons c rest ih =>
      have hrest : ∀ d ∈ rest, isBrace d = true := fun d hd => hw d (List.mem_cons_of_mem c hd)
      have hprefix : ∀ v, v <+: rest → 0 ≤ depth + (weight c + surplus v) := by
        intro v hv
        rw [← surplus_cons]
        exact hsteady (c :: v) ((List.prefix_cons_inj c).mpr hv)
      rw [surplus_cons] at hend
      have hc : c = '{' ∨ c = '}' := by
        have hbrace := hw c List.mem_cons_self
        simpa only [isBrace, Bool.or_eq_true, beq_iff_eq] using hbrace
      rcases hc with rfl | rfl
      · have hopens : weight '{' = 1 := rfl
        have hinside : Closing (depth + 1) rest := by
          refine ih hrest (fun v hv => ?_) (by omega)
          have hlevel := hprefix v hv
          omega
        cases hinside with
        | close hi hr => exact .group hi hr
      · have hcloses : weight '}' = -1 := rfl
        have hlevel := hprefix [] List.nil_prefix
        have hnone : surplus [] = 0 := rfl
        obtain ⟨shallower, rfl⟩ : ∃ shallower, depth = shallower + 1 := ⟨depth - 1, by omega⟩
        refine .close .nil (ih hrest (fun v hv => ?_) (by omega))
        have hlevel := hprefix v hv
        omega

theorem Balanced.surplus_eq (h : Balanced w) : surplus w = 0 := by
  induction h with
  | nil => rfl
  | group _ _ hi hr =>
      have hopens : weight '{' = 1 := rfl
      have hcloses : weight '}' = -1 := rfl
      rw [surplus_cons, surplus_append, surplus_cons, hi, hr]
      omega

theorem Balanced.surplus_nonneg (h : Balanced w) : ∀ v, v <+: w → 0 ≤ surplus v := by
  have hopens : weight '{' = 1 := rfl
  have hcloses : weight '}' = -1 := rfl
  induction h with
  | nil =>
      intro v hv
      rw [List.prefix_nil.mp hv]
      exact Int.le_refl 0
  | @group inner rest hinner hrest hi hr =>
      intro v hv
      rcases List.prefix_cons_iff.mp hv with rfl | ⟨u, rfl, hu⟩
      · exact Int.le_refl 0
      · rw [surplus_cons]
        -- The prefix ends inside the group, at its closing bracket, or after it.
        obtain ⟨more, hmore⟩ := hu
        rcases List.append_eq_append_iff.mp hmore with ⟨s, hinside, -⟩ | ⟨t, rfl, hafter⟩
        · have hlevel := hi u ⟨s, hinside.symm⟩
          omega
        · have hlevel := hinner.surplus_eq
          rw [surplus_append]
          rcases List.prefix_cons_iff.mp ⟨more, hafter.symm⟩ with rfl | ⟨s, rfl, hs⟩
          · have hnone : surplus [] = 0 := rfl
            omega
          · have hbehind := hr s hs
            rw [surplus_cons]
            omega

/-- Balanced words are those that never close more than is open, and close all in the end. -/
theorem balanced_iff (hw : ∀ c ∈ w, isBrace c = true) :
    Balanced w ↔ (∀ v, v <+: w → 0 ≤ surplus v) ∧ surplus w = 0 := by
  constructor
  · exact fun h => ⟨h.surplus_nonneg, h.surplus_eq⟩
  · rintro ⟨hsteady, hend⟩
    have hclosing : Closing 0 w :=
      closing_of_surplus hw (fun v hv => by have := hsteady v hv; omega) (by omega)
    cases hclosing with
    | done h => exact h

/-! ## The structural braces of a text -/

theorem isBrace_of_mem_structural (h : c ∈ structural cs) : isBrace c = true := by
  obtain ⟨p, hp, rfl⟩ := List.mem_map.mp h
  have hstructural := (List.mem_filter.mp hp).2
  rw [isStructural, Bool.and_eq_true] at hstructural
  exact hstructural.1

/-- Levels may be counted over the text or over its structural braces alone. -/
theorem steady_iff : Steady cs ↔ ∀ v, v <+: structural cs → 0 ≤ surplus v := by
  induction cs using List.reverseRecOn with
  | nil =>
      constructor
      · intro _ v hv
        rw [List.prefix_nil.mp hv]
        exact Int.le_refl 0
      · intro _ part hp
        rw [List.prefix_nil.mp hp]
        exact Int.le_refl 0
  | append_singleton xs c ih =>
      rw [steady_concat, ih, structural_concat]
      cases hc : isStructural xs c with
      | false =>
          have hlevel : nesting (xs ++ [c]) = surplus (structural xs) := nesting_plain hc
          simp only [Bool.false_eq_true, if_false, List.append_nil, hlevel]
          exact ⟨fun h => h.1, fun h => ⟨h, h _ List.prefix_rfl⟩⟩
      | true =>
          have hlevel : nesting (xs ++ [c]) = surplus (structural xs ++ [c]) := by
            rw [nesting, structural_concat, if_pos hc]
          simp only [if_true, List.prefix_concat_iff, hlevel]
          constructor
          · rintro ⟨hsteady, hwhole⟩ v (rfl | hv)
            · exact hwhole
            · exact hsteady v hv
          · exact fun h => ⟨fun v hv => h v (.inr hv), h _ (.inl rfl)⟩

theorem balanced_structural : Balanced (structural cs) ↔ Steady cs ∧ nesting cs = 0 := by
  rw [balanced_iff fun _ => isBrace_of_mem_structural, steady_iff]
  rfl

/-! ## Stray braces -/

/-- At this column, counted from one, stands a structural closing brace before which as many
structural braces open as close. -/
def StrayClose (cs : List Char) (column : Nat) : Prop :=
  ∃ before rest, cs = before ++ '}' :: rest ∧ column = before.length + 1 ∧
    isStructural before '}' = true ∧ nesting before = 0

theorem not_strayClose (h : Steady cs) (column : Nat) : ¬ StrayClose cs column := by
  rintro ⟨before, rest, rfl, -, hstructural, hlevel⟩
  have hcloses : weight '}' = -1 := rfl
  have hbelow := h (before ++ ['}']) ⟨rest, by simp⟩
  rw [nesting_structural hstructural] at hbelow
  omega

/-- A text is steady up to its first stray brace, or all over if there is none. -/
theorem steady_or_stray (cs : List Char) : Steady cs ∨ ∃ before rest, cs = before ++ '}' :: rest ∧
    isStructural before '}' = true ∧ nesting before = 0 ∧ Steady before := by
  induction cs using List.reverseRecOn with
  | nil =>
      refine .inl fun part hp => ?_
      rw [List.prefix_nil.mp hp]
      exact Int.le_refl 0
  | append_singleton xs c ih =>
      rcases ih with hsteady | ⟨before, rest, rfl, hstray⟩
      · by_cases hlevel : 0 ≤ nesting (xs ++ [c])
        · exact .inl (steady_concat.mpr ⟨hsteady, hlevel⟩)
        · have hxs := hsteady xs List.prefix_rfl
          have hstructural : isStructural xs c = true := by
            rw [← Bool.not_eq_false]
            intro hplain
            rw [nesting_plain hplain] at hlevel
            omega
          rw [nesting_structural hstructural] at hlevel
          -- Only a closing brace lowers the level, and by one only.
          have hc : c = '}' := by
            by_contra hne
            have hup : 0 ≤ weight c := by
              rw [weight]
              split <;> simp_all
            omega
          subst hc
          have hcloses : weight '}' = -1 := rfl
          exact .inr ⟨xs, [], rfl, hstructural, by omega, hsteady⟩
      · exact .inr ⟨before, rest ++ [c], by simp, hstray⟩

/-! ## Errors -/

theorem readMarks_of_steady (h : Steady cs) : readMarks 0 1 cs =
    (marksOf cs, if nesting cs = 0 then none else some (.unclosed (nesting cs).toNat)) := by
  have hread : ReadsTo cs [] := h.readsTo (by rintro ⟨-, b, hb, -⟩; cases hb)
  have hlevel := h cs List.prefix_rfl
  have hzero : (nesting cs).toNat = 0 ↔ nesting cs = 0 := by omega
  rw [ReadsTo, List.append_nil, readMarks] at hread
  rw [hread]
  simp [Prod.map, hzero]

theorem readMarks_of_stray (hs : Steady before) (hc : isStructural before '}' = true)
    (hlevel : nesting before = 0) (rest : List Char) : readMarks 0 1 (before ++ '}' :: rest) =
      (marksOf before, some (.prematureClose (before.length + 1))) := by
  have hread : ReadsTo before ('}' :: rest) := by
    refine hs.readsTo ?_
    rintro ⟨hlast, -⟩
    simp [isStructural, hlast] at hc
  rw [hread, hlevel]
  simp [Prod.map, readMarks_stray]

theorem error_of_steady (h : Steady cs) : (scanContent cs).error =
    if nesting cs = 0 then none else some (.unclosed (nesting cs).toNat) :=
  congrArg Prod.snd (readMarks_of_steady h)

theorem error_of_stray (hs : Steady before) (hc : isStructural before '}' = true)
    (hlevel : nesting before = 0) (rest : List Char) :
    (scanContent (before ++ '}' :: rest)).error = some (.prematureClose (before.length + 1)) :=
  congrArg Prod.snd (readMarks_of_stray hs hc hlevel rest)

/-- A stray brace before which the text is steady is the first one. -/
theorem isLeast_stray (hs : Steady before) (hc : isStructural before '}' = true)
    (hlevel : nesting before = 0) (rest : List Char) :
    IsLeast {k | StrayClose (before ++ '}' :: rest) k} (before.length + 1) := by
  refine ⟨⟨before, rest, rfl, rfl, hc, hlevel⟩, ?_⟩
  rintro k ⟨front, more, hsplit, rfl, hstructural, hzero⟩
  by_contra hless
  have hshort : front.length < before.length := by omega
  -- The earlier stray brace stands inside the steady part.
  have hpart : front ++ ['}'] <+: before := by
    have hfront : front ++ ['}'] <+: before ++ '}' :: rest := ⟨more, by simp [hsplit]⟩
    refine List.prefix_of_prefix_length_le hfront (List.prefix_append _ _) ?_
    rw [List.length_append, List.length_singleton]
    omega
  obtain ⟨tail, rfl⟩ := hpart
  exact not_strayClose hs (front.length + 1) ⟨front, tail, by simp, rfl, hstructural, hzero⟩

/-- Before every stray brace the text is steady. -/
theorem steady_of_lt (h : ∀ k, StrayClose (before ++ rest) k → before.length < k) :
    Steady before := by
  rcases steady_or_stray before with hsteady | ⟨front, more, rfl, hc, hlevel, -⟩
  · exact hsteady
  · have hstray := h (front.length + 1) ⟨front, more ++ rest, by simp, rfl, hc, hlevel⟩
    rw [List.length_append, List.length_cons] at hstray
    omega

/-- Reading is cut short exactly at the first stray brace. -/
theorem error_eq_prematureClose (cs : List Char) (column : Nat) :
    (scanContent cs).error = some (.prematureClose column) ↔
      IsLeast {k | StrayClose cs k} column := by
  rcases steady_or_stray cs with hsteady | ⟨before, rest, rfl, hc, hlevel, hsteady⟩
  · rw [error_of_steady hsteady]
    constructor
    · intro h
      split at h <;> cases h
    · exact fun h => absurd h.1 (not_strayClose hsteady column)
  · have hleast := isLeast_stray hsteady hc hlevel rest
    rw [error_of_stray hsteady hc hlevel rest]
    constructor
    · intro h
      cases h
      exact hleast
    · exact fun h => congrArg (fun k => some (BraceError.prematureClose k)) (hleast.unique h)

/-- Braces are reported unclosed exactly if none is stray and more open than close. -/
theorem error_eq_unclosed (cs : List Char) (depth : Nat) :
    (scanContent cs).error = some (.unclosed depth) ↔
      (∀ k, ¬ StrayClose cs k) ∧ nesting cs = depth ∧ 0 < depth := by
  rcases steady_or_stray cs with hsteady | ⟨before, rest, rfl, hc, hlevel, hsteady⟩
  · have hwhole := hsteady cs List.prefix_rfl
    rw [error_of_steady hsteady]
    constructor
    · intro h
      split at h
      · cases h
      · cases h
        exact ⟨not_strayClose hsteady, by omega, by omega⟩
    · rintro ⟨-, hdepth, hpos⟩
      rw [if_neg (by omega), hdepth]
      rfl
  · rw [error_of_stray hsteady hc hlevel rest]
    constructor
    · intro h
      cases h
    · exact fun h => absurd (isLeast_stray hsteady hc hlevel rest).1 (h.1 _)

/-- Nothing is reported exactly if the structural braces are a balanced word. -/
theorem error_eq_none (cs : List Char) :
    (scanContent cs).error = none ↔ Balanced (structural cs) := by
  rw [balanced_structural]
  rcases steady_or_stray cs with hsteady | ⟨before, rest, rfl, hc, hlevel, hsteady⟩
  · rw [error_of_steady hsteady]
    constructor
    · intro h
      split at h
      · next hzero => exact ⟨hsteady, hzero⟩
      · cases h
    · exact fun h => if_pos h.2
  · rw [error_of_stray hsteady hc hlevel rest]
    constructor
    · intro h
      cases h
    · exact fun h => absurd (isLeast_stray hsteady hc hlevel rest).1 (not_strayClose h.1 _)

/-- Reading a content is cut short exactly at the first stray brace; if there is none, it reports as
many braces unclosed as open and do not close; and it reports nothing exactly if the structural braces
are a balanced word.  Up to the first stray brace the number of braces that open less that of braces
that close is never negative, and is the depth that the reading counts. -/
theorem scanContent_error (cs : List Char) :
    (∀ column, (scanContent cs).error = some (.prematureClose column) ↔
        IsLeast {k | StrayClose cs k} column) ∧
      (∀ depth, (scanContent cs).error = some (.unclosed depth) ↔
        (∀ k, ¬ StrayClose cs k) ∧ nesting cs = depth ∧ 0 < depth) ∧
      ((scanContent cs).error = none ↔ Balanced (structural cs)) ∧
      (∀ before rest, cs = before ++ rest → (∀ k, StrayClose cs k → before.length < k) →
        0 ≤ nesting before ∧ (¬ CutsPair before rest → ReadsTo before rest)) := by
  refine ⟨error_eq_prematureClose cs, error_eq_unclosed cs, error_eq_none cs, ?_⟩
  rintro before rest rfl h
  have hsteady := steady_of_lt h
  exact ⟨hsteady before List.prefix_rfl, hsteady.readsTo⟩

/-- A group around a hidden brace, then a closing brace too many. -/
def strayText : List Char := "\x7b\\\x7da\x7d b\x7d c\x7d".toList

theorem scanContent_error_stray :
    (scanContent strayText).error = some (.prematureClose 8) ∧
      IsLeast {k | StrayClose strayText k} 8 ∧
      strayText = strayText.take 5 ++ strayText.drop 5 ∧
      (∀ k, StrayClose strayText k → (strayText.take 5).length < k) ∧
      0 ≤ nesting (strayText.take 5) ∧ ¬ CutsPair (strayText.take 5) (strayText.drop 5) ∧
      ReadsTo (strayText.take 5) (strayText.drop 5) := by
  have herror : (scanContent strayText).error = some (.prematureClose 8) := by decide
  obtain ⟨hstray, -, -, hcounter⟩ := scanContent_error strayText
  have hleast := (hstray 8).mp herror
  have hbefore : ∀ k, StrayClose strayText k → (strayText.take 5).length < k := by
    intro k hk
    have hk : 8 ≤ k := hleast.2 hk
    have hlen : (strayText.take 5).length = 5 := by decide
    omega
  have hcut : ¬ CutsPair (strayText.take 5) (strayText.drop 5) := fun h => absurd h.1 (by decide)
  obtain ⟨hlevel, hread⟩ := hcounter _ _ (List.take_append_drop 5 strayText).symm hbefore
  exact ⟨herror, hleast, (List.take_append_drop 5 strayText).symm, hbefore, hlevel, hcut, hread hcut⟩

end BibAudit.Value
