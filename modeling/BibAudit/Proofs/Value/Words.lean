/-
# BibAudit.Proofs.Value.Words — the words of a value.

The tokens of a content are the words of the part that was read, its structural braces left out.  A
brace does not end a word, wherever it stands; only the depth of the characters tells of it.  So a
content reads as one word outside braces if its braces come out of that word, as long as one character
of it is outside all of them.
-/
import BibAudit.Proofs.Text.Words
import BibAudit.Proofs.Value.Plain
import BibAudit.Proofs.Value.Unprotected

namespace BibAudit.Value

variable {cs before rest read part value word : List Char} {c : Char} {t : Token} {depth : Nat}

/-! ## Tokens are words -/

/-- The text without its structural braces. -/
def unbraced (cs : List Char) : List Char :=
  ((places cs).filter fun p => !isStructural p.1 p.2).map Prod.snd

/-- What reading leaves of a character that is no structural brace. -/
def markOf (c : Char) (depth : Nat) : Mark :=
  if Text.isBlank c then .gap else .glyph ⟨c, depth⟩

theorem marks_of_places (ps : List (List Char × Char)) : ps.flatMap marksAt =
    (ps.filter fun p => !isStructural p.1 p.2).map fun p => markOf p.2 (nesting p.1).toNat := by
  induction ps with
  | nil => rfl
  | cons p rest ih =>
      rw [List.flatMap_cons, ih, marksAt]
      cases hs : isStructural p.1 p.2 with
      | true => simp [hs]
      | false =>
          rw [List.filter_cons_of_pos (by simp [hs]), List.map_cons, markOf]
          cases Text.isBlank p.2 <;> rfl

/-- Marks are cut where the characters that they stand for are. -/
theorem chars_splitMarks {α : Type} (char : α → Char) (depth : α → Nat) (l : List α) :
    (splitMarks (l.map fun a => markOf (char a) (depth a))).map Token.chars =
      Text.splitWhere Text.isBlank (l.map char) := by
  induction l with
  | nil => rfl
  | cons a rest ih =>
      rw [List.map_cons, List.map_cons, markOf, Text.splitWhere, ← ih]
      cases hblank : Text.isBlank (char a) with
      | true => rfl
      | false =>
          obtain ⟨t, ts, hsplit⟩ := List.exists_cons_of_ne_nil
            (splitMarks_ne_nil (rest.map fun a => markOf (char a) (depth a)))
          simp only [Bool.false_eq_true, if_false, splitMarks, hsplit]
          rfl

theorem chars_tokensOf_marksOf (cs : List Char) :
    (tokensOf (marksOf cs)).map Token.chars = Text.words (unbraced cs) := by
  have hempty : (fun t : Token => !t.isEmpty) = (fun w : List Char => !w.isEmpty) ∘ Token.chars := by
    funext t
    cases t <;> rfl
  rw [tokensOf, marksOf, marks_of_places, hempty, ← List.filter_map, chars_splitMarks]
  rfl

/-- The tokens of a content are the words of the part that was read, without structural braces. -/
theorem chars_tokens (cs : List Char) :
    (scanContent cs).tokens.map Token.chars = Text.words (unbraced (partRead cs)) := by
  rw [(tokens_partRead cs).2, chars_tokensOf_marksOf]

/-! ## Texts without backslashes -/

theorem isStructural_of_plain (h : '\\' ∉ before) (c : Char) : isStructural before c = isBrace c := by
  have hlast : before.getLast? ≠ some '\\' := fun hlast => h (List.mem_of_getLast? hlast)
  rw [isStructural, bne_iff_ne.mpr hlast, Bool.and_true]

/-- Where no backslash stands, all braces are structural; `keep` says which characters are asked for. -/
theorem filter_places_of_plain (h : '\\' ∉ cs) (keep : Bool → Bool) :
    ((places cs).filter fun p => keep (isStructural p.1 p.2)).map Prod.snd =
      cs.filter fun c => keep (isBrace c) := by
  have hplaces : (places cs).filter (fun p => keep (isStructural p.1 p.2)) =
      (places cs).filter ((fun c => keep (isBrace c)) ∘ Prod.snd) := by
    apply List.filter_congr
    intro p hp
    rw [isStructural_of_plain fun hmem => h ((prefix_of_mem_places hp).subset hmem)]
    rfl
  rw [hplaces, ← List.filter_map, places, map_snd_placesFrom]

theorem structural_of_plain (h : '\\' ∉ cs) : structural cs = cs.filter isBrace :=
  filter_places_of_plain h id

theorem unbraced_of_plain (h : '\\' ∉ cs) : unbraced cs = cs.filter fun c => !isBrace c :=
  filter_places_of_plain h not

theorem nesting_of_plain (h : '\\' ∉ cs) : nesting cs = surplus cs := by
  rw [nesting, structural_of_plain h, surplus_filter isBrace rfl rfl]

theorem steady_of_plain (h : '\\' ∉ cs) : Steady cs ↔ ∀ part, part <+: cs → 0 ≤ surplus part := by
  have hpart : ∀ part, part <+: cs → nesting part = surplus part :=
    fun part hp => nesting_of_plain fun hmem => h (hp.subset hmem)
  exact forall₂_congr fun part hp => by rw [hpart part hp]

theorem mem_unbraced (h : c ∈ cs) (hc : isBrace c = false) : c ∈ unbraced cs := by
  have hcs : c ∈ (places cs).map Prod.snd := by rwa [places, map_snd_placesFrom]
  obtain ⟨p, hp, rfl⟩ := List.mem_map.mp hcs
  refine List.mem_map.mpr ⟨p, List.mem_filter.mpr ⟨hp, ?_⟩, rfl⟩
  rw [isStructural_of_isBrace_eq_false hc]
  rfl

/-- Every place of a text is one of its characters with what stands before it. -/
theorem mem_places {p : List Char × Char} : p ∈ places cs ↔ ∃ after, cs = p.1 ++ p.2 :: after := by
  constructor
  · intro hp
    obtain ⟨xs, zs, hsplit⟩ := List.append_of_mem hp
    obtain ⟨hbefore, hcs⟩ := placesFrom_split hsplit
    rw [List.nil_append] at hbefore
    exact ⟨zs.map Prod.snd, hbefore ▸ hcs⟩
  · rintro ⟨after, rfl⟩
    rw [places_append, placesFrom]
    exact List.mem_append_right _ List.mem_cons_self

/-! ## One word outside braces -/

/-- The part of a value that is read, if no backslash is in it: all of the value, or what stands before
the first closing brace that closes nothing. -/
structure IsReadOf (value read : List Char) : Prop where
  steady : ∀ part, part <+: read → 0 ≤ surplus part
  ends : read = value ∨ ∃ tail, value = read ++ '}' :: tail ∧ surplus read = 0

/-- The value reads as a word outside braces: the part that is read is that word once its braces are
taken out, and one of the characters of the word stands outside all of them. -/
def ReadsAsWord (word value : List Char) : Prop :=
  ∃ read, IsReadOf value read ∧ Text.words (read.filter fun c => !isBrace c) = [word] ∧
    ∃ before c after, read = before ++ c :: after ∧ c ∈ word ∧ surplus before = 0

theorem IsReadOf.prefix (h : IsReadOf value read) : read <+: value := by
  rcases h.ends with rfl | ⟨tail, rfl, -⟩
  · exact List.prefix_rfl
  · exact List.prefix_append read _

theorem partRead_of_isReadOf (hplain : '\\' ∉ read) (h : IsReadOf value read) :
    partRead value = read := by
  have hsteady : Steady read := (steady_of_plain hplain).mpr h.steady
  rcases h.ends with rfl | ⟨tail, rfl, hlevel⟩
  · exact partRead_of_steady hsteady
  · refine partRead_of_stray hsteady ?_ ?_ tail
    · rw [isStructural_of_plain hplain]
      rfl
    · rw [nesting_of_plain hplain, hlevel]

theorem isReadOf_partRead (hplain : '\\' ∉ partRead value) : IsReadOf value (partRead value) := by
  refine ⟨(steady_of_plain hplain).mp (tokens_partRead value).1, ?_⟩
  rcases steady_or_stray value with hsteady | ⟨read, tail, rfl, hc, hlevel, hsteady⟩
  · exact .inl (partRead_of_steady hsteady)
  · have hpart := partRead_of_stray hsteady hc hlevel tail
    rw [hpart] at hplain ⊢
    exact .inr ⟨tail, rfl, nesting_of_plain hplain ▸ hlevel⟩

/-- What is left of a text that is one word without its braces. -/
theorem mem_word_iff (h : Text.words (read.filter fun c => !isBrace c) = [word]) (c : Char) :
    c ∈ word ↔ c ∈ read ∧ isBrace c = false ∧ Text.isBlank c = false := by
  have hflat := Text.flatten_words (read.filter fun c => !isBrace c)
  rw [h, List.flatten_singleton] at hflat
  rw [hflat, List.mem_filter, List.mem_filter]
  simp [and_assoc]

theorem plain_of_words (h : Text.words (read.filter fun c => !isBrace c) = [word])
    (hplain : '\\' ∉ word) : '\\' ∉ read :=
  fun hmem => hplain ((mem_word_iff h '\\').mpr ⟨hmem, rfl, rfl⟩)

/-- A content that has one token reads as its characters, if one of them is at depth zero. -/
theorem readsAsWord_of_token (htokens : (scanContent cs).tokens = [t]) (hplain : '\\' ∉ t.chars)
    (hdepth : Token.depth t = 0) : ReadsAsWord t.chars cs := by
  have hshown := flatten_tokens_scanContent cs
  have hchars := chars_tokens cs
  rw [htokens, List.flatten_singleton] at hshown
  rw [htokens, List.map_singleton] at hchars
  -- A backslash is never taken out, so it would be a character of the token.
  have hread : '\\' ∉ partRead cs := by
    intro hmem
    have hflat := Text.flatten_words (unbraced (partRead cs))
    rw [← hchars, List.flatten_singleton] at hflat
    apply hplain
    rw [hflat]
    exact List.mem_filter.mpr ⟨mem_unbraced hmem rfl, rfl⟩
  have hmem : t ∈ tokensOf (marksOf (partRead cs)) := by
    rw [← (tokens_partRead cs).2, htokens]
    exact List.mem_singleton_self t
  obtain ⟨g, hg, hzero⟩ := (leastDepth_eq_zero (ne_nil_of_mem_tokensOf hmem)).mp hdepth
  obtain ⟨p, hp, rfl⟩ := List.mem_map.mp (hshown ▸ hg)
  obtain ⟨after, hafter⟩ := mem_places.mp (List.mem_filter.mp hp).1
  have hbefore : p.1 <+: partRead cs := prefix_of_mem_shown hp
  have hlevel : 0 ≤ nesting p.1 := (tokens_partRead cs).1 p.1 hbefore
  have hzero : (nesting p.1).toNat = 0 := hzero
  refine ⟨partRead cs, isReadOf_partRead hread, ?_, p.1, p.2, after, hafter, ?_, ?_⟩
  · rw [← unbraced_of_plain hread, ← hchars]
  · exact List.mem_map_of_mem hg
  · rw [← nesting_of_plain fun hmem => hread (hbefore.subset hmem)]
    omega

/-- A content that reads as a word has it for its only token, and the depth of that token is zero. -/
theorem ReadsAsWord.token (hplain : '\\' ∉ word) (h : ReadsAsWord word cs) :
    ∃ t, (scanContent cs).tokens = [t] ∧ t.chars = word ∧ Token.depth t = 0 := by
  obtain ⟨read, hread, hwords, before, c, after, hsplit, hc, hlevel⟩ := h
  have hplain : '\\' ∉ read := plain_of_words hwords hplain
  have hpart : partRead cs = read := partRead_of_isReadOf hplain hread
  have hshown := flatten_tokens_scanContent cs
  have hchars := chars_tokens cs
  rw [hpart, unbraced_of_plain hplain, hwords] at hchars
  obtain ⟨t, htokens, hword⟩ := List.map_eq_singleton_iff.mp hchars
  rw [hpart, htokens, List.flatten_singleton] at hshown
  have hbefore : '\\' ∉ before := fun hmem => hplain (hsplit ▸ List.mem_append_left _ hmem)
  obtain ⟨-, hbrace, hblank⟩ := (mem_word_iff hwords c).mp hc
  have hplace : (before, c) ∈ shown read :=
    List.mem_filter.mpr ⟨mem_places.mpr ⟨after, hsplit⟩,
      isShown_iff.mpr ⟨isStructural_of_isBrace_eq_false hbrace before, hblank⟩⟩
  have hmem : glyphAt (before, c) ∈ t := hshown ▸ List.mem_map_of_mem hplace
  refine ⟨t, htokens, hword, (leastDepth_eq_zero (List.ne_nil_of_mem hmem)).mpr ⟨_, hmem, ?_⟩⟩
  show (nesting before).toNat = 0
  rw [nesting_of_plain hbefore, hlevel]
  rfl

/-- A content has one token, and some character of it is at depth zero, exactly if it reads as that
word outside braces. -/
theorem scanContent_word (hplain : '\\' ∉ word) :
    (∃ t, (scanContent cs).tokens = [t] ∧ t.chars = word ∧ Token.depth t = 0) ↔
      ReadsAsWord word cs := by
  constructor
  · rintro ⟨t, htokens, rfl, hdepth⟩
    exact readsAsWord_of_token htokens hplain hdepth
  · exact ReadsAsWord.token hplain

/-! ## Delimiters -/

theorem splitDelimiter_bare (h : (splitDelimiter cs).1 = .bare) : splitDelimiter cs = (.bare, cs) := by
  unfold splitDelimiter at h ⊢
  split
  · next hquotes =>
      rw [if_pos hquotes] at h
      cases h
  · next hquotes =>
      rw [if_neg hquotes] at h
      split
      · next hbraces =>
          rw [if_pos hbraces] at h
          cases h
      · rfl

/-- A value that reads as a word outside braces has no delimiter: a quote would be one of its
characters, and in a brace group no character stands outside. -/
theorem ReadsAsWord.bare (hplain : '\\' ∉ word) (hquote : '"' ∉ word) (h : ReadsAsWord word value) :
    (splitDelimiter value).1 = .bare := by
  obtain ⟨read, hread, hwords, before, c, after, rfl, hc, hlevel⟩ := h
  have hpart : before ++ [c] <+: value := by
    refine List.IsPrefix.trans ⟨after, ?_⟩ hread.prefix
    rw [List.append_assoc, List.singleton_append]
  obtain ⟨-, hbrace, -⟩ := (mem_word_iff hwords c).mp hc
  cases hdelimiter : (splitDelimiter value).1 with
  | bare => rfl
  | quotes =>
      obtain ⟨inner, rfl⟩ := splitDelimiter_quotes.mp hdelimiter
      have hfirst : '"' ∈ before ++ c :: after := by
        rcases List.prefix_cons_iff.mp hread.prefix with hnil | ⟨more, hmore, -⟩
        · simp at hnil
        · rw [hmore]
          exact List.mem_cons_self
      exact absurd ((mem_word_iff hwords '"').mpr ⟨hfirst, rfl, rfl⟩) hquote
  | braces =>
      obtain ⟨inner, rfl, hencloses⟩ := splitDelimiter_braces.mp hdelimiter
      rcases before with _ | ⟨b, before⟩
      · obtain ⟨rfl, -⟩ := List.cons_prefix_cons.mp hpart
        cases hbrace
      · obtain ⟨rfl, hbehind⟩ := List.cons_prefix_cons.mp hpart
        have hinner : before <+: inner := by
          rcases List.prefix_concat_iff.mp hbehind with hwhole | hless
          · rw [(List.append_inj' hwhole rfl).1]
          · exact (List.prefix_append before [c]).trans hless
        have hpos := hencloses.1 before hinner
        have hbefore : '\\' ∉ before := fun hmem => plain_of_words hwords hplain (by simp [hmem])
        have hopens : weight '{' = 1 := rfl
        rw [balance_eq_surplus hbefore] at hpos
        rw [surplus_cons] at hlevel
        omega

/-- A value without a delimiter has one token, some character of it at depth zero, exactly if it reads
as that word outside braces. -/
theorem scanField_word (hplain : '\\' ∉ word) (hquote : '"' ∉ word) (raw : List Char) :
    ((scanField raw).delimiter = .bare ∧
        ∃ t, (scanField raw).tokens = [t] ∧ t.chars = word ∧ Token.depth t = 0) ↔
      ReadsAsWord word (Text.trim raw) := by
  have hbare : (splitDelimiter (Text.trim raw)).1 = .bare →
      (scanField raw).tokens = (scanContent (Text.trim raw)).tokens := by
    intro h
    show (scanContent (splitDelimiter (Text.trim raw)).2).tokens = _
    rw [splitDelimiter_bare h]
  rw [← scanContent_word hplain, delimiter_scanField]
  constructor
  · rintro ⟨hdelimiter, htoken⟩
    rwa [hbare hdelimiter] at htoken
  · intro htoken
    have hdelimiter := ((scanContent_word hplain).mp htoken).bare hplain hquote
    refine ⟨hdelimiter, ?_⟩
    rwa [hbare hdelimiter]

/-! ## Values without braces -/

theorem filter_notBrace (h : ∀ c ∈ cs, isBrace c = false) : cs.filter (fun c => !isBrace c) = cs :=
  List.filter_eq_self.mpr fun c hc => by rw [h c hc]; rfl

theorem readsAsWord_self (hw : Text.IsWord word) (h : ∀ c ∈ word, isBrace c = false) :
    ReadsAsWord word word := by
  refine ⟨word, ⟨?_, .inl rfl⟩, ?_, ?_⟩
  · intro part hp
    rw [surplus_eq_zero fun c hc => h c (hp.subset hc)]
  · rw [filter_notBrace h, Text.words_of_isWord hw]
  · obtain ⟨c, rest, rfl⟩ := List.exists_cons_of_ne_nil hw.filled
    exact ⟨[], c, rest, rfl, List.mem_cons_self, surplus_nil⟩

/-- Where no brace stands, a trimmed value reads as itself only. -/
theorem ReadsAsWord.eq_of_unbraced (htight : Text.Tight value) (h : ReadsAsWord word value)
    (hbraces : ∀ c ∈ value, isBrace c = false) : value = word := by
  obtain ⟨read, hread, hwords, -⟩ := h
  rcases hread.ends with rfl | ⟨tail, rfl, -⟩
  · rw [filter_notBrace hbraces] at hwords
    exact htight.eq_of_words hwords
  · have hclose := hbraces '}' (by simp)
    cases hclose

end BibAudit.Value
