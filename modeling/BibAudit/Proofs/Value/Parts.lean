/-
# BibAudit.Proofs.Value.Parts — texts put together from parts.

Whether a brace is structural depends on the character right before it.  So a part that stands behind
another one is structured as it is alone, if the part before it does not end in a backslash: its
structural braces are the same, nesting adds up, and reading it leaves the same marks, each deeper by
the levels that are open there.  Blanks at either end of a text have no structure and are in no
token.
-/
import BibAudit.Proofs.Value.Tokens

namespace BibAudit.Value

variable {front part inner back cs ws : List Char} {c : Char} {ms : List Mark}

/-! ## Going deeper -/

/-- The glyph with more brace pairs around it. -/
def Glyph.deeper (levels : Nat) (g : Glyph) : Glyph :=
  ⟨g.char, g.depth + levels⟩

/-- The token with more brace pairs around it. -/
def Token.deeper (levels : Nat) (t : Token) : Token :=
  t.map (Glyph.deeper levels)

/-- The mark with more brace pairs around it. -/
def Mark.deeper (levels : Nat) : Mark → Mark
  | .glyph g => .glyph (g.deeper levels)
  | .gap => .gap

theorem splitMarks_deeper (levels : Nat) (ms : List Mark) :
    splitMarks (ms.map (Mark.deeper levels)) = (splitMarks ms).map (Token.deeper levels) := by
  induction ms with
  | nil => rfl
  | cons m rest ih =>
      cases m with
      | gap =>
          show [] :: splitMarks (rest.map (Mark.deeper levels)) = _
          rw [ih]
          rfl
      | glyph g =>
          obtain ⟨t, ts, hsplit⟩ := List.exists_cons_of_ne_nil (splitMarks_ne_nil rest)
          simp [Mark.deeper, splitMarks, ih, hsplit, Token.deeper]

/-- Depth is no matter to where tokens end. -/
theorem tokensOf_deeper (levels : Nat) (ms : List Mark) :
    tokensOf (ms.map (Mark.deeper levels)) = (tokensOf ms).map (Token.deeper levels) := by
  unfold tokensOf
  rw [splitMarks_deeper, List.filter_map]
  congr 2
  funext t
  cases t <;> rfl

/-! ## A part behind another -/

theorem isStructural_append (h : front.getLast? ≠ some '\\') (before : List Char) (c : Char) :
    isStructural (front ++ before) c = isStructural before c := by
  rcases List.eq_nil_or_concat' before with rfl | ⟨less, d, rfl⟩
  · have hfront : (front.getLast? != some '\\') = true := bne_iff_ne.mpr h
    unfold isStructural
    rw [List.append_nil, hfront]
    rfl
  · unfold isStructural
    rw [← List.append_assoc, List.getLast?_concat, List.getLast?_concat]

theorem placesFrom_eq_map (front before cs : List Char) :
    placesFrom (front ++ before) cs = (placesFrom before cs).map fun p => (front ++ p.1, p.2) := by
  induction cs generalizing before with
  | nil => rfl
  | cons c rest ih => rw [placesFrom, placesFrom, List.map_cons, List.append_assoc, ih]

/-- The places of a part are those it has alone, moved behind what stands before it. -/
theorem places_behind (front part : List Char) :
    places (front ++ part) = places front ++ (places part).map fun p => (front ++ p.1, p.2) := by
  have hmoved := placesFrom_eq_map front [] part
  rw [List.append_nil] at hmoved
  rw [places_append, hmoved]
  rfl

theorem structural_append (h : front.getLast? ≠ some '\\') (part : List Char) :
    structural (front ++ part) = structural front ++ structural part := by
  have hmoved : (((places part).map fun p => (front ++ p.1, p.2)).filter
      fun p => isStructural p.1 p.2).map Prod.snd = structural part := by
    rw [List.filter_map, List.map_map]
    show ((places part).filter fun p => isStructural (front ++ p.1) p.2).map Prod.snd = _
    simp only [isStructural_append h]
    rfl
  unfold structural
  rw [places_behind, List.filter_append, List.map_append, hmoved]
  rfl

theorem nesting_append (h : front.getLast? ≠ some '\\') (part : List Char) :
    nesting (front ++ part) = nesting front + nesting part := by
  unfold nesting
  rw [structural_append h, surplus_append]

/-- A steady part leaves the marks that it leaves alone, deeper by the levels open before it. -/
theorem marksOf_append (h : front.getLast? ≠ some '\\') (hfront : 0 ≤ nesting front)
    (hpart : Steady part) : marksOf (front ++ part) =
      marksOf front ++ (marksOf part).map (Mark.deeper (nesting front).toNat) := by
  have heach : ∀ p ∈ places part, marksAt (front ++ p.1, p.2) =
      (marksAt p).map (Mark.deeper (nesting front).toNat) := by
    intro p hp
    have hlevel : 0 ≤ nesting p.1 := hpart p.1 (prefix_of_mem_places hp)
    have hdepth : (nesting front + nesting p.1).toNat =
        (nesting p.1).toNat + (nesting front).toNat := by omega
    unfold marksAt
    rw [isStructural_append h, nesting_append h, hdepth]
    cases isStructural p.1 p.2 <;> cases Text.isBlank p.2 <;> rfl
  unfold marksOf
  rw [places_behind, List.flatMap_append, List.flatMap_map, List.map_flatMap]
  congr 1
  exact List.flatMap_congr heach

/-! ## Blanks at the ends -/

theorem getLast?_blanks (h : ∀ c ∈ ws, Text.isBlank c = true) : ws.getLast? ≠ some '\\' := by
  intro hlast
  have hblank := h '\\' (List.mem_of_getLast? hlast)
  cases hblank

theorem structural_blanks (h : ∀ c ∈ ws, Text.isBlank c = true) : structural ws = [] := by
  induction ws using List.reverseRecOn with
  | nil => rfl
  | append_singleton xs c ih =>
      have hc : isBrace c = false := isBrace_of_isBlank (h c (by simp))
      rw [structural_concat, isStructural_of_isBrace_eq_false hc, ih fun d hd => h d (by simp [hd])]
      rfl

theorem nesting_blanks (h : ∀ c ∈ ws, Text.isBlank c = true) : nesting ws = 0 := by
  unfold nesting
  rw [structural_blanks h]
  rfl

theorem steady_of_structural (h : structural cs = []) : Steady cs ∧ nesting cs = 0 :=
  balanced_structural.mp (h ▸ .nil)

theorem marksOf_blanks (h : ∀ c ∈ ws, Text.isBlank c = true) : ∀ m ∈ marksOf ws, m = .gap := by
  induction ws using List.reverseRecOn with
  | nil => intro m hm; cases hm
  | append_singleton xs c ih =>
      have hc : Text.isBlank c = true := h c (by simp)
      rw [marksOf_plain (isStructural_of_isBrace_eq_false (isBrace_of_isBlank hc) xs), hc]
      intro m hm
      rcases List.mem_append.mp hm with hm | hm
      · exact ih (fun d hd => h d (by simp [hd])) m hm
      · exact List.mem_singleton.mp hm

theorem tokensOf_gaps_append {gaps : List Mark} (h : ∀ m ∈ gaps, m = .gap) (ms : List Mark) :
    tokensOf (gaps ++ ms) = tokensOf ms := by
  induction gaps with
  | nil => rfl
  | cons m rest ih =>
      obtain rfl := h m List.mem_cons_self
      rw [List.cons_append, tokensOf_gap]
      exact ih fun n hn => h n (List.mem_cons_of_mem _ hn)

theorem tokensOf_append_gaps {gaps : List Mark} (h : ∀ m ∈ gaps, m = .gap) (ms : List Mark) :
    tokensOf (ms ++ gaps) = tokensOf ms := by
  cases gaps with
  | nil => rw [List.append_nil]
  | cons m rest =>
      obtain rfl := h m List.mem_cons_self
      have hrest : tokensOf (rest ++ []) = tokensOf [] :=
        tokensOf_gaps_append (fun n hn => h n (List.mem_cons_of_mem _ hn)) []
      rw [List.append_nil] at hrest
      rw [tokensOf_append_gap, hrest]
      exact List.append_nil _

end BibAudit.Value
