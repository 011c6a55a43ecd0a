/-
# BibAudit.Proofs.Value.Plain — the readable text is a normal form.

The readable text of a content is its tokens with single spaces between them.  Reading that text again
changes nothing: what braces it holds were hidden ones, each has its backslash right before it still,
and so the text has no structure, every token comes back as it was, and all of it is outside braces.

The reason is that a structural brace never stands right behind a backslash.  Taking one out brings
together two characters of which the first is no backslash, so no other brace changes its status.
-/
import BibAudit.Proofs.Text.Split
import BibAudit.Proofs.Value.Delimiter
import BibAudit.Proofs.Value.Overquoted

namespace BibAudit.Value

variable {cs before mid : List Char} {ws : List (List Char)} {b c : Char} {t : Token}

/-! ## Texts without structure -/

/-- A text has no structure if each of its braces has a backslash right before it. -/
theorem structural_eq_nil
    (h : ∀ u c v, cs = u ++ c :: v → isBrace c = true → u.getLast? = some '\\') :
    structural cs = [] := by
  induction cs using List.reverseRecOn with
  | nil => rfl
  | append_singleton xs c ih =>
      have hxs : structural xs = [] := by
        apply ih
        rintro u d v rfl hd
        exact h u d (v ++ [c]) (by simp) hd
      have hc : isStructural xs c = false := by
        rw [← Bool.not_eq_true]
        intro hstructural
        unfold isStructural at hstructural
        obtain ⟨hbrace, hlast⟩ := Bool.and_eq_true_iff.mp hstructural
        exact bne_iff_ne.mp hlast (h xs c [] rfl hbrace)
      rw [structural_concat, hxs, hc]
      rfl

/-- A character outside all braces. -/
def flatGlyph (c : Char) : Glyph :=
  ⟨c, 0⟩

/-- What reading leaves of a character outside all braces. -/
def flatMark (c : Char) : Mark :=
  if Text.isBlank c then .gap else .glyph (flatGlyph c)

theorem chars_flat (cs : List Char) : Token.chars (cs.map flatGlyph) = cs := by
  show (cs.map flatGlyph).map Glyph.char = cs
  rw [List.map_map]
  exact List.map_id cs

theorem marksOf_flat (h : structural cs = []) : marksOf cs = cs.map flatMark := by
  induction cs using List.reverseRecOn with
  | nil => rfl
  | append_singleton xs c ih =>
      rw [structural_concat] at h
      obtain ⟨hxs, hlast⟩ := List.append_eq_nil_iff.mp h
      have hc : isStructural xs c = false := by
        rw [← Bool.not_eq_true]
        intro hstructural
        rw [if_pos hstructural] at hlast
        cases hlast
      rw [marksOf_plain hc, ih hxs, (steady_of_structural hxs).2, List.map_append]
      rfl

theorem not_isOneGroup_of_flat (h : structural cs = []) : isOneGroup cs = false := by
  rw [← Bool.not_eq_true, isOneGroup_iff]
  rintro ⟨inner, htrim, hlast, -⟩
  obtain ⟨front, back, hgroup, hfront, hback⟩ := blanks_around_group htrim
  rw [hgroup, structural_group hfront hlast hback] at h
  cases h

/-! ## Words between spaces -/

/-- A word that reading gives back as it is: it is not empty, no blank is in it, and no structure. -/
structure PlainWord (w : List Char) : Prop where
  filled : w ≠ []
  visible : ∀ c ∈ w, Text.isBlank c = false
  flat : structural w = []

theorem plainWord_of_mem_tokens (ht : t ∈ (scanContent cs).tokens) : PlainWord t.chars := by
  rw [(tokens_partRead cs).2] at ht
  refine ⟨?_, visible_of_mem_token ht, structural_eq_nil fun u c v => backslash_in_token ht⟩
  intro hempty
  exact ne_nil_of_mem_tokensOf ht (List.map_eq_nil_iff.mp hempty)

/-- Spaces bring no structure in. -/
theorem structural_join (h : ∀ w ∈ ws, PlainWord w) : structural ([' '].intercalate ws) = [] := by
  induction ws with
  | nil => rfl
  | cons w rest ih =>
      have hw := (h w List.mem_cons_self).flat
      cases rest with
      | nil => rw [List.intercalate_singleton, hw]
      | cons next more =>
          have hspace : (w ++ [' ']).getLast? ≠ some '\\' := by
            rw [List.getLast?_concat]
            decide
          rw [List.intercalate_cons_cons, structural_append hspace, structural_concat, hw,
            isStructural_of_isBrace_eq_false rfl, ih fun v hv => h v (List.mem_cons_of_mem w hv)]
          rfl

theorem splitMarks_glyphs (gs : List Glyph) : splitMarks (gs.map .glyph) = [gs] := by
  induction gs with
  | nil => rfl
  | cons g rest ih =>
      rw [List.map_cons, splitMarks, ih]

theorem tokensOf_word {w : List Char} (h : PlainWord w) :
    tokensOf (w.map flatMark) = [w.map flatGlyph] := by
  have hmarks : w.map flatMark = (w.map flatGlyph).map .glyph := by
    rw [List.map_map]
    apply List.map_congr_left
    intro c hc
    unfold flatMark
    rw [h.visible c hc]
    rfl
  have hfilled : (w.map flatGlyph).isEmpty = false := by
    rw [List.isEmpty_eq_false_iff]
    exact fun hempty => h.filled (List.map_eq_nil_iff.mp hempty)
  unfold tokensOf
  rw [hmarks, splitMarks_glyphs, List.filter_cons_of_pos (by rw [hfilled]; rfl), List.filter_nil]

/-- Words between spaces are the tokens again. -/
theorem tokensOf_join (h : ∀ w ∈ ws, PlainWord w) :
    tokensOf (([' '].intercalate ws).map flatMark) = ws.map (List.map flatGlyph) := by
  induction ws with
  | nil => rfl
  | cons w rest ih =>
      have hw := h w List.mem_cons_self
      cases rest with
      | nil => rw [List.intercalate_singleton, tokensOf_word hw]; rfl
      | cons next more =>
          have hsplit : ([' '].intercalate (w :: next :: more)).map flatMark =
              w.map flatMark ++ .gap :: ([' '].intercalate (next :: more)).map flatMark := by
            rw [List.intercalate_cons_cons, List.append_assoc, List.map_append]
            rfl
          rw [hsplit, tokensOf_append_gap, tokensOf_word hw,
            ih fun v hv => h v (List.mem_cons_of_mem w hv)]
          rfl

/-! ## The readable text -/

/-- The readable text is blank only if nothing was read. -/
theorem blank_plainChars (cs : List Char) :
    (∀ c ∈ (scanContent cs).plainChars, Text.isBlank c = true) ↔ (scanContent cs).tokens = [] := by
  have hwords : ∀ w ∈ (scanContent cs).tokens.map Token.chars, PlainWord w := by
    intro w hw
    obtain ⟨t, ht, rfl⟩ := List.mem_map.mp hw
    exact plainWord_of_mem_tokens ht
  constructor
  · intro hblank
    have hnone : (scanContent cs).plainChars.filter (!Text.isBlank ·) = [] := by
      rw [List.filter_eq_nil_iff]
      intro c hc
      rw [hblank c hc]
      decide
    rw [Scanned.plainChars, Text.filter_intercalate (by decide), List.filter_eq_nil_iff] at hnone
    by_contra htokens
    obtain ⟨t, ts, heq⟩ := List.exists_cons_of_ne_nil htokens
    have hw := hwords t.chars (by simp [heq])
    obtain ⟨c, u, hchars⟩ := List.exists_cons_of_ne_nil hw.filled
    have hc : c ∈ t.chars := hchars ▸ List.mem_cons_self
    apply hnone c (List.mem_flatten.mpr ⟨t.chars, by simp [heq], hc⟩)
    rw [hw.visible c hc]
    rfl
  · intro hnone c hc
    rw [Scanned.plainChars, hnone] at hc
    cases hc

theorem blank_plainText (raw : List Char) :
    (∀ c ∈ (scanField raw).plainText.toList, Text.isBlank c = true) ↔ (scanField raw).tokens = [] := by
  rw [Scanned.plainText, String.toList_ofList]
  exact blank_plainChars (splitDelimiter (Text.trim raw)).2

/-- A single word reads as itself. -/
theorem plainChars_word {w : List Char} (h : PlainWord w) : (scanContent w).plainChars = w := by
  rw [Scanned.plainChars, tokens_of_steady (steady_of_structural h.flat).1, marksOf_flat h.flat,
    tokensOf_word h, List.map_singleton, List.intercalate_singleton, chars_flat]

/-- A word without braces and backslashes, in a brace group, reads as itself. -/
theorem plainText_braced {w : List Char} (hw : w ≠ [])
    (h : ∀ c ∈ w, Text.isBlank c = false ∧ c ≠ '\\' ∧ isBrace c = false) :
    (scanField ('{' :: (w ++ ['}']))).plainText = String.ofList w := by
  have hplain : '\\' ∉ w := fun hc => (h _ hc).2.1 rfl
  have hflat : structural w = [] := by
    apply structural_eq_nil
    rintro u c v rfl hc
    rw [(h c (by simp)).2.2] at hc
    cases hc
  have hbraces : w.filter isBrace = [] := by
    rw [List.filter_eq_nil_iff]
    intro c hc
    rw [(h c hc).2.2]
    decide
  have hencloses : Encloses 1 w := by
    apply Piece.WellFormed.encloses
    rw [Piece.WellFormed, hbraces]
    exact ⟨hplain, .nil⟩
  have htight : Text.Tight ('{' :: (w ++ ['}'])) := Text.tight_between rfl rfl w
  show String.ofList (scanContent (splitDelimiter (Text.trim _)).2).plainChars = _
  rw [htight.trim_eq, splitDelimiter_group hencloses,
    plainChars_word ⟨hw, fun c hc => (h c hc).1, hflat⟩]

theorem structural_plainChars (cs : List Char) : structural (scanContent cs).plainChars = [] := by
  apply structural_join
  intro w hw
  obtain ⟨t, ht, rfl⟩ := List.mem_map.mp hw
  exact plainWord_of_mem_tokens ht

/-- Reading the readable text gives the same tokens, outside all braces. -/
theorem tokens_plainChars (cs : List Char) : (scanContent (scanContent cs).plainChars).tokens =
    (scanContent cs).tokens.map fun t => t.chars.map flatGlyph := by
  have hflat := structural_plainChars cs
  rw [tokens_of_steady (steady_of_structural hflat).1, marksOf_flat hflat]
  show tokensOf (([' '].intercalate ((scanContent cs).tokens.map Token.chars)).map flatMark) = _
  rw [tokensOf_join, List.map_map]
  · rfl
  · intro w hw
    obtain ⟨t, ht, rfl⟩ := List.mem_map.mp hw
    exact plainWord_of_mem_tokens ht

theorem chars_tokens_plainChars (cs : List Char) :
    (scanContent (scanContent cs).plainChars).tokens.map Token.chars =
      (scanContent cs).tokens.map Token.chars := by
  rw [tokens_plainChars, List.map_map]
  exact List.map_congr_left fun t _ => chars_flat t.chars

/-! ## Hidden braces -/

/-- The braces of a text that are no structure, in order. -/
def hidden (cs : List Char) : List Char :=
  ((places cs).filter fun p => isBrace p.2 && !isStructural p.1 p.2).map Prod.snd

theorem filter_join (ws : List (List Char)) :
    ([' '].intercalate ws).filter isBrace = ws.flatten.filter isBrace := by
  induction ws with
  | nil => rfl
  | cons w rest ih =>
      cases rest with
      | nil => rw [List.intercalate_singleton, List.flatten_singleton]
      | cons next more =>
          have hspace : [' '].filter isBrace = [] := rfl
          rw [List.intercalate_cons_cons, List.append_assoc, List.filter_append, List.filter_append,
            ih, hspace, List.nil_append, ← List.filter_append]
          rfl

/-- The braces of the readable text are the hidden ones of the part that was read. -/
theorem filter_plainChars (cs : List Char) :
    (scanContent cs).plainChars.filter isBrace = hidden (partRead cs) := by
  have hchars : ((scanContent cs).tokens.map Token.chars).flatten =
      (shown (partRead cs)).map Prod.snd := by
    show ((scanContent cs).tokens.map (List.map Glyph.char)).flatten = _
    rw [← List.map_flatten, flatten_tokens_scanContent, List.map_map]
    rfl
  show ([' '].intercalate ((scanContent cs).tokens.map Token.chars)).filter isBrace = _
  rw [filter_join, hchars, List.filter_map]
  show (((places (partRead cs)).filter isShown).filter (isBrace ∘ Prod.snd)).map Prod.snd = _
  rw [List.filter_filter]
  unfold hidden
  congr 1
  apply List.filter_congr
  intro p _
  show (isBrace p.2 && isShown p) = (isBrace p.2 && !isStructural p.1 p.2)
  cases hb : isBrace p.2 with
  | false => rfl
  | true =>
      unfold isShown
      rw [isBlank_of_isBrace hb, Bool.not_false, Bool.and_true]

/-- Without a structural brace every other brace keeps its status. -/
theorem isStructural_without (hb : isStructural before b = true) (mid : List Char) (c : Char) :
    isStructural (before ++ mid) c = isStructural (before ++ b :: mid) c := by
  unfold isStructural at hb
  obtain ⟨hbrace, hlast⟩ := Bool.and_eq_true_iff.mp hb
  have hbehind : (before ++ [b]).getLast? ≠ some '\\' := by
    rw [List.getLast?_concat]
    rintro ⟨⟩
    cases hbrace
  have hsplit : before ++ b :: mid = before ++ [b] ++ mid := by simp
  rw [hsplit, isStructural_append (bne_iff_ne.mp hlast), isStructural_append hbehind]

/-! ## Reading the readable text -/

/-- The readable text of a content, as a content again. -/
def readable (cs : List Char) : List Char :=
  (scanContent cs).plainText.toList

theorem readable_eq (cs : List Char) : readable cs = (scanContent cs).plainChars :=
  String.toList_ofList

/-- The readable text of a content is read without error, into the same tokens, all outside braces; it
is not overquoted, and its readable text is itself.  It has no structural brace: its braces are those
that were hidden in the part that was read, and are hidden still.  Taking a structural brace out of a
text changes the status of no other character. -/
theorem plainText_stable (cs : List Char) :
    (scanContent (readable cs)).error = none ∧
      (scanContent (readable cs)).tokens.map Token.text = (scanContent cs).tokens.map Token.text ∧
      (∀ t ∈ (scanContent (readable cs)).tokens, ∀ g ∈ t, g.depth = 0) ∧
      (scanContent (readable cs)).isOverquoted = false ∧
      (scanContent (readable cs)).plainText = (scanContent cs).plainText ∧
      structural (readable cs) = [] ∧ (readable cs).filter isBrace = hidden (partRead cs) ∧
      (∀ before b mid c rest, cs = before ++ b :: (mid ++ c :: rest) →
        isStructural before b = true →
          isStructural (before ++ mid) c = isStructural (before ++ b :: mid) c) := by
  have hflat := structural_plainChars cs
  have hchars := chars_tokens_plainChars cs
  rw [readable_eq]
  refine ⟨?_, ?_, ?_, ?_, ?_, hflat, filter_plainChars cs, ?_⟩
  · rw [error_eq_none, hflat]
    exact .nil
  · have htexts := congrArg (List.map String.ofList) hchars
    rwa [List.map_map, List.map_map] at htexts
  · rw [tokens_plainChars]
    intro t ht g hg
    obtain ⟨word, -, rfl⟩ := List.mem_map.mp ht
    obtain ⟨c, -, rfl⟩ := List.mem_map.mp hg
    rfl
  · show (isOneGroup _ && _) = false
    rw [not_isOneGroup_of_flat hflat, Bool.false_and]
  · exact congrArg (fun ws => String.ofList ([' '].intercalate ws)) hchars
  · intro before b mid c rest _ hb
    exact isStructural_without hb mid c

/-- Structure inside a word and right behind a blank, hidden braces, and a part that is not read. -/
def bracedText : List Char := "a\x7bb\\\x7d\x7d \\ \x7bc\\\x7b\x7d\x7d d".toList

theorem plainText_stable_braced :
    (scanContent bracedText).plainText = "ab\\\x7d \\ c\\\x7b" ∧
      (scanContent (readable bracedText)).plainText = "ab\\\x7d \\ c\\\x7b" ∧
      bracedText = ['a'] ++ '\x7b' :: (['b', '\\'] ++ '\x7d' :: bracedText.drop 5) ∧
      isStructural ['a'] '\x7b' = true ∧
      isStructural (['a'] ++ ['b', '\\']) '\x7d' =
        isStructural (['a'] ++ '\x7b' :: ['b', '\\']) '\x7d' := by
  have htext : (scanContent bracedText).plainText = "ab\\\x7d \\ c\\\x7b" := by decide
  have hsplit : bracedText = ['a'] ++ '\x7b' :: (['b', '\\'] ++ '\x7d' :: bracedText.drop 5) := by
    decide
  have hb : isStructural ['a'] '\x7b' = true := by decide
  obtain ⟨-, -, -, -, hagain, -, -, hstatus⟩ := plainText_stable bracedText
  exact ⟨htext, hagain.trans htext, hsplit, hb, hstatus _ _ _ _ _ hsplit hb⟩

end BibAudit.Value
