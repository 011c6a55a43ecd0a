/-
# BibAudit.Proofs.Value.Tokens — which characters become tokens.

The tokens of a value, told place by place.  One after the other they are the characters of the part
that was read, blanks and structural braces left out, each as deep as the text before it is nested.
Two of them that follow one another are in the same token exactly if no blank stands between them in
the text, structural braces or not.  A brace that is left is a hidden one, and its backslash is right
before it in the token.
-/
import BibAudit.Proofs.Value.Brackets

namespace BibAudit.Value

variable {cs before rest p : List Char} {c : Char} {g a b : Glyph} {t : Token} {n : Nat}
  {ms ns gaps : List Mark}

/-! ## Marks and tokens -/

/-- The glyph of a mark that is none of the gaps. -/
def Mark.glyph? : Mark → Option Glyph
  | .glyph g => some g
  | .gap => none

theorem splitMarks_ne_nil (ms : List Mark) : splitMarks ms ≠ [] := by
  cases ms with
  | nil => simp [splitMarks]
  | cons m rest =>
      cases m with
      | gap => simp [splitMarks]
      | glyph g =>
          rw [splitMarks]
          split <;> simp

theorem tokensOf_gap (ms : List Mark) : tokensOf (.gap :: ms) = tokensOf ms := by
  simp [tokensOf, splitMarks]

/-- A glyph in front is a token of its own, or goes to the first token. -/
theorem tokensOf_glyph (g : Glyph) (ms : List Mark) :
    tokensOf (.glyph g :: ms) = [g] :: tokensOf ms ∨
      ∃ t ts, tokensOf ms = t :: ts ∧ tokensOf (.glyph g :: ms) = (g :: t) :: ts := by
  obtain ⟨t, ts, hsplit⟩ := List.exists_cons_of_ne_nil (splitMarks_ne_nil ms)
  cases t with
  | nil => exact .inl (by simp [tokensOf, splitMarks, hsplit])
  | cons d t =>
      refine .inr ⟨d :: t, ts.filter fun t => !t.isEmpty, ?_, ?_⟩
      · simp [tokensOf, hsplit]
      · simp [tokensOf, splitMarks, hsplit]

theorem splitMarks_append_gap (ms ns : List Mark) :
    splitMarks (ms ++ .gap :: ns) = splitMarks ms ++ splitMarks ns := by
  induction ms with
  | nil => rfl
  | cons m rest ih =>
      cases m with
      | gap => rw [List.cons_append, splitMarks, ih]; rfl
      | glyph g =>
          obtain ⟨t, ts, hsplit⟩ := List.exists_cons_of_ne_nil (splitMarks_ne_nil rest)
          simp [splitMarks, ih, hsplit]

theorem tokensOf_append_gap (ms ns : List Mark) :
    tokensOf (ms ++ .gap :: ns) = tokensOf ms ++ tokensOf ns := by
  rw [tokensOf, splitMarks_append_gap, List.filter_append]
  rfl

/-- Tokens lose no glyph. -/
theorem flatten_tokensOf (ms : List Mark) : (tokensOf ms).flatten = ms.filterMap Mark.glyph? := by
  induction ms with
  | nil => rfl
  | cons m rest ih =>
      cases m with
      | gap => rw [tokensOf_gap, ih]; rfl
      | glyph g =>
          rw [List.filterMap_cons_some (rfl : Mark.glyph? (.glyph g) = some g), ← ih]
          rcases tokensOf_glyph g rest with h | ⟨t, ts, hrest, h⟩
          · rw [h]; rfl
          · rw [h, hrest]; rfl

theorem ne_nil_of_mem_tokensOf (h : t ∈ tokensOf ms) : t ≠ [] := by
  rintro rfl
  simp [tokensOf] at h

/-! ## Neighbours in a token -/

/-- The characters number `n` and `n + 1` of the tokens, counted from zero over all of them, are in
one token. -/
def InOneToken (tokens : List Token) (n : Nat) : Prop :=
  ∃ ts t us, tokens = ts ++ t :: us ∧ ts.flatten.length ≤ n ∧ n + 1 < ts.flatten.length + t.length

theorem InOneToken.cons {tokens : List Token} (h : InOneToken tokens n) (t : Token) :
    InOneToken (t :: tokens) (t.length + n) := by
  obtain ⟨ts, u, us, rfl, hle, hlt⟩ := h
  refine ⟨t :: ts, u, us, rfl, ?_, ?_⟩ <;> rw [List.flatten_cons, List.length_append] <;> omega

/-- Where one token ends, the next one starts. -/
theorem not_inOneToken {ts us : List Token} (h : ts.flatten.length = n + 1) :
    ¬ InOneToken (ts ++ us) n := by
  rintro ⟨ts', t, us', hsplit, hle, hlt⟩
  rcases List.append_eq_append_iff.mp hsplit with ⟨more, rfl, -⟩ | ⟨more, rfl, hmore⟩
  · rw [List.flatten_append, List.length_append] at hle
    omega
  · rw [List.flatten_append, List.length_append] at h
    cases more with
    | nil => rw [List.flatten_nil, List.length_nil] at h; omega
    | cons u more =>
        obtain rfl : t = u := (List.cons.inj hmore).1
        rw [List.flatten_cons, List.length_append] at h
        omega

/-- Glyphs with no gap between them are in one token. -/
theorem inOneToken_adjacent (ms ns : List Mark) (a b : Glyph) :
    InOneToken (tokensOf (ms ++ .glyph a :: .glyph b :: ns)) (ms.filterMap Mark.glyph?).length := by
  induction ms with
  | nil =>
      obtain ⟨t, ts, hsplit⟩ := List.exists_cons_of_ne_nil (splitMarks_ne_nil ns)
      refine ⟨[], a :: b :: t, ts.filter fun t => !t.isEmpty, ?_, Nat.le_refl 0, by simp⟩
      simp [tokensOf, splitMarks, hsplit]
  | cons m rest ih =>
      cases m with
      | gap =>
          rw [List.cons_append, tokensOf_gap]
          exact ih
      | glyph g =>
          rw [List.cons_append, List.filterMap_cons_some (rfl : Mark.glyph? (.glyph g) = some g),
            List.length_cons]
          rcases tokensOf_glyph g (rest ++ .glyph a :: .glyph b :: ns) with h | ⟨t, ts, hrest, h⟩
          · rw [h, Nat.add_comm]
            exact ih.cons [g]
          · -- The first token is one character longer, all else stays.
            rw [hrest] at ih
            rw [h]
            obtain ⟨before, u, after, hsplit, hle, hlt⟩ := ih
            cases before with
            | nil =>
                obtain ⟨rfl, rfl⟩ := List.cons.inj hsplit
                refine ⟨[], g :: t, ts, rfl, Nat.zero_le _, ?_⟩
                rw [List.length_cons]
                omega
            | cons v before =>
                obtain ⟨rfl, rfl⟩ := List.cons.inj hsplit
                refine ⟨(g :: t) :: before, u, after, rfl, ?_, ?_⟩ <;>
                  rw [List.flatten_cons, List.length_append, List.length_cons] <;>
                  rw [List.flatten_cons, List.length_append] at hle hlt <;> omega

/-- Two glyphs with nothing but gaps between them are in one token exactly if there is no gap. -/
theorem inOneToken_iff (hgaps : ∀ m ∈ gaps, m = .gap) :
    InOneToken (tokensOf (ms ++ .glyph a :: (gaps ++ .glyph b :: ns)))
      (ms.filterMap Mark.glyph?).length ↔ gaps = [] := by
  cases gaps with
  | nil => exact ⟨fun _ => rfl, fun _ => inOneToken_adjacent ms ns a b⟩
  | cons m more =>
      obtain rfl : m = .gap := hgaps m List.mem_cons_self
      refine ⟨fun h => ?_, fun h => by cases h⟩
      have hsplit : ms ++ .glyph a :: (.gap :: more ++ .glyph b :: ns) =
          (ms ++ [.glyph a]) ++ .gap :: (more ++ .glyph b :: ns) := by simp
      rw [hsplit, tokensOf_append_gap] at h
      refine absurd h (not_inOneToken ?_)
      rw [flatten_tokensOf, List.filterMap_append, List.length_append]
      rfl

/-! ## What stands before a token -/

/-- A piece ends where the marks end, or at a gap. -/
theorem marks_of_splitMarks {ts : List Token} (h : splitMarks ms = t :: ts) :
    (ts = [] ∧ ms = t.map .glyph) ∨
      ∃ ns, ms = t.map .glyph ++ .gap :: ns ∧ splitMarks ns = ts := by
  induction ms generalizing t with
  | nil =>
      obtain ⟨rfl, rfl⟩ := List.cons.inj h
      exact .inl ⟨rfl, rfl⟩
  | cons m rest ih =>
      cases m with
      | gap =>
          obtain ⟨rfl, rfl⟩ := List.cons.inj h
          exact .inr ⟨rest, rfl, rfl⟩
      | glyph g =>
          obtain ⟨u, us, hsplit⟩ := List.exists_cons_of_ne_nil (splitMarks_ne_nil rest)
          rw [splitMarks, hsplit] at h
          obtain ⟨rfl, rfl⟩ := List.cons.inj h
          rcases ih hsplit with ⟨rfl, rfl⟩ | ⟨ns, rfl, hns⟩
          · exact .inl ⟨rfl, rfl⟩
          · exact .inr ⟨ns, rfl, hns⟩

/-- The marks right before those of a token are none, or a gap. -/
theorem marks_of_mem_splitMarks (h : t ∈ splitMarks ms) :
    ∃ front back, ms = front ++ t.map .glyph ++ back ∧ (front = [] ∨ front.getLast? = some .gap) := by
  obtain ⟨before, after, hsplit⟩ := List.append_of_mem h
  clear h
  induction before generalizing ms with
  | nil =>
      rcases marks_of_splitMarks hsplit with ⟨-, rfl⟩ | ⟨ns, rfl, -⟩
      · exact ⟨[], [], by simp, .inl rfl⟩
      · exact ⟨[], .gap :: ns, rfl, .inl rfl⟩
  | cons u before ih =>
      rcases marks_of_splitMarks hsplit with ⟨hnil, -⟩ | ⟨ns, rfl, hns⟩
      · simp at hnil
      · obtain ⟨front, back, rfl, hfront⟩ := ih hns
        refine ⟨u.map .glyph ++ .gap :: front, back, by simp, .inr ?_⟩
        rcases hfront with rfl | hlast
        · simp
        · simp [List.getLast?_append, List.getLast?_cons, hlast]

/-! ## The places that are left -/

/-- The character at the place is neither blank nor a structural brace. -/
def isShown (p : List Char × Char) : Bool :=
  !isStructural p.1 p.2 && !Text.isBlank p.2

/-- The places of a text that reading leaves visible. -/
def shown (cs : List Char) : List (List Char × Char) :=
  (places cs).filter isShown

/-- The glyph that reading leaves of a place. -/
def glyphAt (p : List Char × Char) : Glyph :=
  ⟨p.2, (nesting p.1).toNat⟩

theorem map_snd_placesFrom (before cs : List Char) : (placesFrom before cs).map Prod.snd = cs := by
  induction cs generalizing before with
  | nil => rfl
  | cons c rest ih => rw [placesFrom, List.map_cons, ih]

theorem placesFrom_split {xs zs : List (List Char × Char)} {q : List Char × Char}
    (h : placesFrom before cs = xs ++ q :: zs) :
    q.1 = before ++ xs.map Prod.snd ∧ cs = xs.map Prod.snd ++ q.2 :: zs.map Prod.snd := by
  induction xs generalizing before cs with
  | nil =>
      cases cs with
      | nil => cases h
      | cons c rest =>
          obtain ⟨rfl, rfl⟩ := List.cons.inj h
          simp [map_snd_placesFrom]
  | cons x xs ih =>
      cases cs with
      | nil => cases h
      | cons c rest =>
          obtain ⟨rfl, htail⟩ := List.cons.inj h
          obtain ⟨hq, hrest⟩ := ih htail
          exact ⟨by simp [hq], by simp [hrest]⟩

/-- What stands before a place is the characters of the places before it. -/
theorem places_split {xs zs : List (List Char × Char)} {q : List Char × Char}
    (h : places cs = xs ++ q :: zs) : q.1 = xs.map Prod.snd ∧ q.1 <+: cs := by
  obtain ⟨hq, hcs⟩ := placesFrom_split h
  rw [List.nil_append] at hq
  exact ⟨hq, hq ▸ ⟨_, hcs.symm⟩⟩

theorem prefix_of_mem_places {p : List Char × Char} (h : p ∈ places cs) : p.1 <+: cs := by
  obtain ⟨xs, zs, hsplit⟩ := List.append_of_mem h
  exact (places_split hsplit).2

theorem prefix_of_mem_shown {p : List Char × Char} (h : p ∈ shown cs) : p.1 <+: cs :=
  prefix_of_mem_places (List.mem_filter.mp h).1

theorem isShown_iff {p : List Char × Char} :
    isShown p = true ↔ isStructural p.1 p.2 = false ∧ Text.isBlank p.2 = false := by
  rw [isShown, Bool.and_eq_true, Bool.not_eq_true', Bool.not_eq_true']

theorem marksAt_shown {p : List Char × Char} (h : isShown p = true) :
    marksAt p = [.glyph (glyphAt p)] := by
  obtain ⟨hplain, hvisible⟩ := isShown_iff.mp h
  rw [marksAt, hplain, hvisible]
  rfl

/-- Of the other places only the blanks leave something. -/
theorem marksAt_not_shown {p : List Char × Char} (h : ¬ isShown p = true) :
    marksAt p = if Text.isBlank p.2 then [.gap] else [] := by
  rw [marksAt]
  cases hs : isStructural p.1 p.2 with
  | true =>
      rw [isStructural, Bool.and_eq_true] at hs
      rw [isBlank_of_isBrace hs.1]
      rfl
  | false =>
      have hb : Text.isBlank p.2 = true := by
        rw [← Bool.not_eq_false]
        exact fun hvisible => h (isShown_iff.mpr ⟨hs, hvisible⟩)
      rw [hb]
      rfl

theorem glyphs_of_places (ps : List (List Char × Char)) :
    (ps.flatMap marksAt).filterMap Mark.glyph? = (ps.filter isShown).map glyphAt := by
  induction ps with
  | nil => rfl
  | cons p rest ih =>
      rw [List.flatMap_cons, List.filterMap_append, ih]
      by_cases h : isShown p = true
      · rw [marksAt_shown h, List.filter_cons_of_pos h]
        rfl
      · rw [marksAt_not_shown h, List.filter_cons_of_neg h]
        cases Text.isBlank p.2 <;> rfl

theorem flatten_tokens_marksOf (cs : List Char) :
    (tokensOf (marksOf cs)).flatten = (shown cs).map glyphAt := by
  rw [flatten_tokensOf]
  exact glyphs_of_places (places cs)

/-- A brace that leaves a glyph has its backslash right before it. -/
theorem backslash_before (h : marksOf cs = ms ++ .glyph g :: ns) (hb : isBrace g.char = true) :
    ∃ depth, ms.getLast? = some (.glyph ⟨'\\', depth⟩) := by
  induction cs using List.reverseRecOn generalizing ns with
  | nil => simp [marksOf, places, placesFrom] at h
  | append_singleton xs c ih =>
      cases hs : isStructural xs c with
      | true =>
          rw [marksOf_structural hs] at h
          exact ih h
      | false =>
          rw [marksOf_plain hs] at h
          rcases List.eq_nil_or_concat' ns with rfl | ⟨shorter, m, rfl⟩
          · obtain ⟨hxs, hlast⟩ := List.append_inj' h rfl
            cases hblank : Text.isBlank c with
            | true => simp [hblank] at hlast
            | false =>
                simp only [hblank, Bool.false_eq_true, if_false, List.cons.injEq, Mark.glyph.injEq,
                  and_true] at hlast
                subst hlast
                -- A brace that is no structure is hidden by the character before it.
                have hhidden : xs.getLast? = some '\\' := by
                  rw [isStructural, hb] at hs
                  simpa using hs
                obtain ⟨ys, rfl⟩ := List.getLast?_eq_some_iff.mp hhidden
                have hplain : isStructural ys '\\' = false :=
                  isStructural_of_isBrace_eq_false isBrace_backslash ys
                rw [marksOf_plain hplain] at hxs
                exact ⟨_, by rw [← hxs, List.getLast?_concat]; rfl⟩
          · have hsplit : marksOf xs = ms ++ .glyph g :: shorter := by
              rw [← List.cons_append, ← List.append_assoc] at h
              exact (List.append_inj' h rfl).1
            exact ih hsplit

/-- A brace in a token has a backslash right before it there. -/
theorem backslash_in_token (ht : t ∈ tokensOf (marksOf cs)) {u v : List Char}
    (hsplit : t.chars = u ++ c :: v) (hb : isBrace c = true) : u.getLast? = some '\\' := by
  obtain ⟨front, back, hmarks, hfront⟩ := marks_of_mem_splitMarks (List.mem_filter.mp ht).1
  obtain ⟨gs, ds, rfl, rfl, hds⟩ := List.map_eq_append_iff.mp hsplit
  obtain ⟨g, hs, rfl, rfl, -⟩ := List.map_eq_cons_iff.mp hds
  have hplace : marksOf cs = (front ++ gs.map .glyph) ++ .glyph g :: (hs.map .glyph ++ back) := by
    rw [hmarks]
    simp
  obtain ⟨depth, hlast⟩ := backslash_before hplace hb
  -- Right before the token there is a gap or nothing, so the backslash is in it.
  rcases List.eq_nil_or_concat' gs with rfl | ⟨less, d, rfl⟩
  · rcases hfront with rfl | hgap
    · simp at hlast
    · simp [hgap] at hlast
  · simp only [List.map_append, List.map_cons, List.map_nil, ← List.append_assoc,
      List.getLast?_concat, Option.some.injEq, Mark.glyph.injEq] at hlast
    simp [hlast]

theorem visible_of_mem_token (ht : t ∈ tokensOf (marksOf cs)) :
    ∀ c ∈ t.chars, Text.isBlank c = false := by
  intro c hc
  obtain ⟨g, hg, rfl⟩ := List.mem_map.mp hc
  have hmem : g ∈ (shown cs).map glyphAt :=
    flatten_tokens_marksOf cs ▸ List.mem_flatten_of_mem ht hg
  obtain ⟨p, hp, rfl⟩ := List.mem_map.mp hmem
  exact (isShown_iff.mp (List.mem_filter.mp hp).2).2

/-! ## The tokens of a content -/

/-- The part of a content before the brace that cuts its reading short, or all of it. -/
def partRead (cs : List Char) : List Char :=
  match (scanContent cs).error with
  | some (.prematureClose column) => cs.take (column - 1)
  | _ => cs

theorem tokens_of_steady (h : Steady cs) : (scanContent cs).tokens = tokensOf (marksOf cs) := by
  unfold scanContent
  rw [readMarks_of_steady h]

theorem tokens_of_stray (hs : Steady before) (hc : isStructural before '}' = true)
    (hlevel : nesting before = 0) (rest : List Char) :
    (scanContent (before ++ '}' :: rest)).tokens = tokensOf (marksOf before) := by
  unfold scanContent
  rw [readMarks_of_stray hs hc hlevel rest]

theorem partRead_of_steady (h : Steady cs) : partRead cs = cs := by
  rw [partRead, error_of_steady h]
  by_cases hzero : nesting cs = 0 <;> simp [hzero]

theorem partRead_of_stray (hs : Steady before) (hc : isStructural before '}' = true)
    (hlevel : nesting before = 0) (rest : List Char) :
    partRead (before ++ '}' :: rest) = before := by
  rw [partRead, error_of_stray hs hc hlevel rest]
  exact List.take_left

/-- The part that is read is steady, and its marks alone make the tokens. -/
theorem tokens_partRead (cs : List Char) :
    Steady (partRead cs) ∧ (scanContent cs).tokens = tokensOf (marksOf (partRead cs)) := by
  rcases steady_or_stray cs with hsteady | ⟨before, rest, rfl, hc, hlevel, hsteady⟩
  · rw [partRead_of_steady hsteady]
    exact ⟨hsteady, tokens_of_steady hsteady⟩
  · rw [partRead_of_stray hsteady hc hlevel rest]
    exact ⟨hsteady, tokens_of_stray hsteady hc hlevel rest⟩

/-- The characters that are shown of the part that was read, each at its depth. -/
theorem flatten_tokens_scanContent (cs : List Char) :
    (scanContent cs).tokens.flatten = (shown (partRead cs)).map glyphAt := by
  rw [(tokens_partRead cs).2, flatten_tokens_marksOf]

/-- The text between two places. -/
def textBetween (x y : List Char × Char) : List Char :=
  y.1.drop (x.1.length + 1)

/-- Between two neighbours among the places that are left stand places that are not. -/
theorem places_of_shown {front back : List (List Char × Char)} {x y : List Char × Char}
    (h : shown cs = front ++ x :: y :: back) :
    ∃ before between after, places cs = before ++ x :: (between ++ y :: after) ∧
      before.filter isShown = front ∧ isShown x = true ∧ (∀ p ∈ between, ¬ isShown p = true) ∧
      isShown y = true ∧ textBetween x y = between.map Prod.snd := by
  obtain ⟨before, rest, hplaces, rfl, hrest⟩ := List.filter_eq_append_iff.mp h
  obtain ⟨skipped, more, rfl, hskipped, hx, hmore⟩ := List.filter_eq_cons_iff.mp hrest
  obtain ⟨between, after, rfl, hbetween, hy, -⟩ := List.filter_eq_cons_iff.mp hmore
  have hfirst : places cs = (before ++ skipped) ++ x :: (between ++ y :: after) := by
    rw [hplaces, List.append_assoc]
  have hsecond : places cs = (before ++ skipped ++ x :: between) ++ y :: after := by
    rw [hfirst]
    simp
  have hxy : y.1 = x.1 ++ x.2 :: between.map Prod.snd := by
    rw [(places_split hsecond).1, (places_split hfirst).1]
    simp
  refine ⟨before ++ skipped, between, after, hfirst, ?_, hx, hbetween, hy, ?_⟩
  · rw [List.filter_append, List.filter_eq_nil_iff.mpr hskipped, List.append_nil]
  · rw [textBetween, hxy, List.drop_length_add_append]
    rfl

/-- Two neighbours among the places that are left are in one token exactly if no blank stands between
them. -/
theorem inOneToken_places {front back : List (List Char × Char)} {x y : List Char × Char}
    (h : shown cs = front ++ x :: y :: back) :
    InOneToken (tokensOf (marksOf cs)) front.length ↔
      ∀ c ∈ textBetween x y, Text.isBlank c = false := by
  obtain ⟨before, between, after, hplaces, rfl, hx, hbetween, hy, htext⟩ := places_of_shown h
  have hmarks : marksOf cs = before.flatMap marksAt ++ .glyph (glyphAt x) ::
      (between.flatMap marksAt ++ .glyph (glyphAt y) :: after.flatMap marksAt) := by
    simp [marksOf, hplaces, marksAt_shown hx, marksAt_shown hy]
  have hgaps : ∀ m ∈ between.flatMap marksAt, m = .gap := by
    intro m hm
    obtain ⟨p, hp, hm⟩ := List.mem_flatMap.mp hm
    rw [marksAt_not_shown (hbetween p hp)] at hm
    split at hm
    · exact List.mem_singleton.mp hm
    · cases hm
  have hcount : (before.filter isShown).length =
      ((before.flatMap marksAt).filterMap Mark.glyph?).length := by
    rw [glyphs_of_places, List.length_map]
  rw [hcount, hmarks, inOneToken_iff hgaps, htext, List.flatMap_eq_nil_iff, List.forall_mem_map]
  refine forall₂_congr fun p hp => ?_
  rw [marksAt_not_shown (hbetween p hp)]
  cases Text.isBlank p.2 <;> simp

/-- The tokens of a content.  One after the other they are the characters of the part that was read,
but for blanks and structural braces, each with the nesting of the text before it.  No token is empty
or holds a blank.  Neighbours among the characters are in one token exactly if no blank stands between
them in the text.  A brace in a token has a backslash right before it there. -/
theorem scanContent_tokens (cs : List Char) :
    (scanContent cs).tokens.flatten.map (fun g => (g.char, (g.depth : Int))) =
        (shown (partRead cs)).map (fun p => (p.2, nesting p.1)) ∧
      (∀ t ∈ (scanContent cs).tokens, t ≠ [] ∧ ∀ c ∈ t.chars, Text.isBlank c = false) ∧
      (∀ front x y back, shown (partRead cs) = front ++ x :: y :: back →
        (InOneToken (scanContent cs).tokens front.length ↔
          ∀ c ∈ textBetween x y, Text.isBlank c = false)) ∧
      (∀ t ∈ (scanContent cs).tokens, ∀ u c v, t.chars = u ++ c :: v → isBrace c = true →
        u.getLast? = some '\\') := by
  obtain ⟨hsteady, htokens⟩ := tokens_partRead cs
  rw [htokens]
  refine ⟨?_, fun t ht => ⟨ne_nil_of_mem_tokensOf ht, visible_of_mem_token ht⟩,
    fun front x y back => inOneToken_places, fun t ht u c v => backslash_in_token ht⟩
  rw [flatten_tokens_marksOf, List.map_map]
  refine List.map_congr_left fun p hp => ?_
  have hlevel := hsteady p.1 (prefix_of_mem_shown hp)
  have hdepth : ((nesting p.1).toNat : Int) = nesting p.1 := Int.toNat_of_nonneg hlevel
  exact Prod.ext rfl hdepth

/-- A brace that is structure inside a word, a hidden one, and a closing brace too many. -/
def cutText : List Char := "a\x7bb c\x7d\\\x7bd e\x7d f".toList

theorem scanContent_tokens_cut :
    (scanContent cutText).tokens.flatten.map (fun g => (g.char, (g.depth : Int))) =
        (shown (partRead cutText)).map (fun p => (p.2, nesting p.1)) ∧
      [⟨'c', 1⟩, ⟨'\\', 0⟩, ⟨'\x7b', 0⟩, ⟨'d', 0⟩] ∈ (scanContent cutText).tokens ∧
      ([⟨'c', 1⟩, ⟨'\\', 0⟩, ⟨'\x7b', 0⟩, ⟨'d', 0⟩] : Token) ≠ [] ∧
      shown (partRead cutText) = [] ++ ([], 'a') :: (['a', '\x7b'], 'b') ::
        (shown (partRead cutText)).drop 2 ∧
      InOneToken (scanContent cutText).tokens 0 := by
  obtain ⟨hflatten, heach, hneighbours, -⟩ := scanContent_tokens cutText
  have hmem : [⟨'c', 1⟩, ⟨'\\', 0⟩, ⟨'\x7b', 0⟩, ⟨'d', 0⟩] ∈ (scanContent cutText).tokens := by
    decide
  have hshown : shown (partRead cutText) = [] ++ ([], 'a') :: (['a', '\x7b'], 'b') ::
      (shown (partRead cutText)).drop 2 := by decide
  have hbetween : ∀ c ∈ textBetween ([], 'a') (['a', '\x7b'], 'b'), Text.isBlank c = false :=
    List.forall_mem_singleton.mpr rfl
  exact ⟨hflatten, hmem, (heach _ hmem).1, hshown, (hneighbours _ _ _ _ hshown).mpr hbetween⟩

end BibAudit.Value
