/-
# BibAudit.Proofs.Bib.Layout — a field beside its header or below it.

The first field of an entry may stand on the header line, behind the comma, or on a line of its own.
The reader matches it in two places, but with the same pattern, and goes on from the same open field.
The one difference is a value that closes more braces than it opens and ends in a closing brace: on a
header line that brace closes the entry.  So an entry may be closed on its header line, and is read
then as if the field and the closing brace stood on lines of their own.
-/
import BibAudit.Proofs.Bib.Form
import BibAudit.Proofs.Bib.Resume
import BibAudit.Proofs.Bib.Standing
import BibAudit.Proofs.Value.Delimiter
import BibAudit.Proofs.Value.Parts

namespace BibAudit.Bib

open Text (isBlank trim trimStart trimEnd)

variable {path : SourcePath} {before : List (List Char)}
  {raw head cs pad kind key rest name value : List Char} {k n line : Nat}

/-! ## Patterns with more behind them -/

theorem trimStart_append_of_ne (h : trimStart cs ≠ []) (more : List Char) :
    trimStart (cs ++ more) = trimStart cs ++ more := by
  rw [trimStart, List.dropWhile_append, if_neg (by simpa [trimStart] using h), ← trimStart]

/-- A run that a character ends, blanks aside, ends there whatever stands further behind. -/
theorem run_append {p : Char → Bool} {stop : Char} {after : List Char}
    (h : trimStart (cs.dropWhile p) = stop :: after) (more : List Char) :
    (cs ++ more).takeWhile p = cs.takeWhile p ∧
      trimStart ((cs ++ more).dropWhile p) = stop :: (after ++ more) ∧ cs ≠ [] := by
  obtain ⟨c, behind, hbehind⟩ : ∃ c behind, cs.dropWhile p = c :: behind := by
    refine List.exists_cons_of_ne_nil fun hnil => ?_
    rw [hnil] at h
    cases h
  have hc : p c = false := Text.head_dropWhile c (by rw [hbehind]; rfl)
  have hrun : ∀ c ∈ cs.takeWhile p, p c = true := List.all_eq_true.mp List.all_takeWhile
  have hcs : cs = cs.takeWhile p ++ c :: behind := by
    rw [← hbehind, List.takeWhile_append_dropWhile]
  have hmore : cs ++ more = cs.takeWhile p ++ c :: (behind ++ more) :=
    (congrArg (· ++ more) hcs).trans (by simp)
  refine ⟨?_, ?_, ?_⟩
  · rw [hmore, takeWhile_run hrun hc]
  · rw [hbehind] at h
    rw [hmore, dropWhile_run hrun hc, ← List.cons_append, trimStart_append_of_ne (by simp [h]), h]
    rfl
  · rintro rfl
    cases hbehind

/-- A header is read alike, whatever stands behind it. -/
theorem header?_append (h : header? cs = some (kind, key, rest)) (more : List Char) :
    header? (cs ++ more) = some (kind, key, rest ++ more) := by
  obtain ⟨inside, hkind, hbrace, hkey, hcomma, hfilled⟩ := header_parts h
  obtain ⟨hkind', hbrace', hcs⟩ := run_append hbrace more
  obtain ⟨hkey', hcomma', hinside⟩ := run_append hcomma more
  simp only [header?, trimStart_append_of_ne hcs, hkind', hkind, hbrace',
    trimStart_append_of_ne hinside, hkey', hkey, hcomma', hfilled]
  rfl

/-- A header is no special block: behind its type there is a blank or a brace, which no block name
has in it. -/
theorem isSpecial_of_header (h : header? cs = some (kind, key, rest))
    (hb : kind.map Char.toLower ∉ blockKinds) : isSpecial cs = false := by
  obtain ⟨inside, hkind, hbrace, -, -, hfilled⟩ := header_parts h
  have hne : kind ≠ [] := by
    rintro rfl
    cases hfilled
  have hletters : ∀ c ∈ kind, c.isAlpha = true := by
    intro c hc
    rw [← hkind] at hc
    exact List.mem_takeWhile_imp hc
  obtain ⟨stop, after, hafter⟩ : ∃ stop after,
      (trimStart cs).dropWhile Char.isAlpha = stop :: after := by
    refine List.exists_cons_of_ne_nil fun hnil => ?_
    rw [hnil] at hbrace
    cases hbrace
  have hcs : trimStart cs = kind ++ stop :: after := by
    rw [← hkind, ← hafter, List.takeWhile_append_dropWhile]
  have hstop : ∀ word ∈ blockKinds, foldLetter stop ∉ word := by
    by_cases hblank : isBlank stop = true
    · have hall : ∀ n ∈ blankCodes, ∀ word ∈ blockKinds, foldLetter (Char.ofNat n) ∉ word := by
        decide +kernel
      have hnone := hall _ (mem_blankCodes hblank)
      rwa [Char.ofNat_toNat] at hnone
    · rw [hafter, trimStart, List.dropWhile_cons_of_neg hblank] at hbrace
      obtain rfl : stop = '{' := (List.cons.inj hbrace).1
      decide
  have htrimmed : isSpecial cs = isSpecial (trimStart cs) := by
    have hself : trimStart (trimStart cs) = trimStart cs := Text.trimStart_eq_self Text.head_trimStart
    unfold isSpecial
    rw [hself]
  rw [htrimmed, hcs]
  exact isSpecial_eq_false hne hletters hb hstop

/-! ## Header lines with more behind them -/

theorem header_of_classify (h : classify raw = .header kind key rest) :
    ∃ body, trim raw = '@' :: body ∧ header? body = some (kind, key, rest) := by
  unfold classify at h
  split at h
  · cases h
  · split at h <;> cases h
  · cases h
  · next body hbody =>
      split at h
      · cases h
      · split at h
        · next hheader =>
            obtain ⟨rfl, rfl, rfl⟩ := LineKind.header.inj h
            exact ⟨body, hbody, hheader⟩
        · cases h
  · split at h <;> cases h

/-- A line that ends behind the comma of a header is a header still when there is more on it. -/
theorem classify_append (h : classify head = .header kind key []) (more : List Char) :
    ∃ rest, classify (head ++ more) = .header kind key rest ∧ trim rest = trim more := by
  obtain ⟨body, hbody, hheader⟩ := header_of_classify h
  obtain ⟨front, back, hhead, hfront, hback⟩ := Text.blanks_around_trim head
  have hfilled : body ≠ [] := by
    rintro rfl
    cases hheader
  obtain ⟨init, z, rfl⟩ : ∃ init z, body = init ++ [z] :=
    ⟨body.dropLast, body.getLast hfilled, (List.dropLast_append_getLast hfilled).symm⟩
  have hz : isBlank z = false := by
    refine (Text.tight_trim head).last z ?_
    rw [hbody, ← List.cons_append, List.getLast?_concat]
    rfl
  have hline : trim (head ++ more) = '@' :: (init ++ [z] ++ trimEnd (back ++ more)) := by
    have hsplit : head ++ more = front ++ ('@' :: (init ++ z :: (back ++ more))) := by
      rw [hhead, hbody]
      simp
    rw [hsplit, Text.trim_blanks_append hfront, ← List.cons_append, Text.trim_append_cons hz,
      List.append_assoc]
    rfl
  have hmore := header?_append hheader (trimEnd (back ++ more))
  have hspecial := isSpecial_of_header hmore (headerForm_of_classify h).kind_entry
  refine ⟨trimEnd (back ++ more), ?_, ?_⟩
  · simp only [classify, hline, hspecial, hmore]
    rfl
  · rw [Text.trim_trimEnd, Text.trim_blanks_append hback]

/-! ## Fields on header lines -/

/-- A field on a header line closes the entry only if its value ends in the brace that does. -/
theorem closesItself_of_field (h : field? (trim rest) = some (name, value)) :
    closesItself rest = closesEntry value := by
  have hhead : ((trim rest).head? == some '}') = false := by
    rw [beq_eq_false_iff_ne]
    intro hbrace
    obtain ⟨more, hmore⟩ := List.head?_eq_some_iff.mp hbrace
    rw [hmore, field?_brace] at h
    cases h
  rw [closesItself, hhead, h]
  rfl

theorem headerOpen_of_field (h : field? (trim rest) = some (name, value)) (e : Entry) (line : Nat) :
    headerOpen e line rest =
      ⟨e, some (.start line name (if closesEntry value then value.dropLast else value))⟩ := by
  rw [headerOpen, headerField?, h]
  rfl

/-- The blanks around a value are no part of it. -/
theorem start_append_blanks (hpad : ∀ c ∈ pad, isBlank c = true) (line : Nat)
    (name value : List Char) :
    OpenField.start line name (value ++ pad) = .start line name value := by
  rw [OpenField.start, OpenField.start, Text.trim_append_blanks hpad]

theorem trim_closed (h : trim cs ≠ []) :
    ∃ pad, (∀ c ∈ pad, isBlank c = true) ∧ trim (cs ++ ['}']) = trim cs ++ (pad ++ ['}']) := by
  obtain ⟨front, pad, hcs, hfront, hpad⟩ := Text.blanks_around_trim cs
  refine ⟨pad, hpad, ?_⟩
  have hbrace : Text.Tight ['}'] := by decide
  have htight : Text.Tight (trim cs ++ pad ++ ['}']) :=
    (Text.tight_trim cs).append hbrace h (by simp) pad
  have hsplit : cs ++ ['}'] = front ++ (trim cs ++ pad ++ ['}']) :=
    (congrArg (· ++ ['}']) hcs).trans (by simp)
  rw [hsplit, Text.trim_blanks_append hfront, htight.trim_eq, List.append_assoc]

/-- A closing brace behind a field is part of its value, as are the blanks before it, unless there is
nothing else. -/
theorem field?_closed (h : field? cs = some (name, value)) (hpad : ∀ c ∈ pad, isBlank c = true) :
    ∃ gap, (∀ c ∈ gap, isBlank c = true) ∧
      field? (cs ++ (pad ++ ['}'])) = some (name, value ++ (gap ++ ['}'])) := by
  obtain ⟨signed, hname, hsign, rfl, hfilled⟩ := field_parts h
  obtain ⟨hname', hsign', -⟩ := run_append hsign (pad ++ ['}'])
  have hfield : field? (cs ++ (pad ++ ['}'])) =
      some (name, trimStart (signed ++ (pad ++ ['}']))) := by
    simp only [field?, hname', hname, hsign', hfilled]
    rfl
  by_cases hvalue : trimStart signed = []
  · have hbrace : trimStart (signed ++ (pad ++ ['}'])) = ['}'] := by
      have hblank : trimStart (signed ++ pad) = [] := by
        rw [trimStart, List.dropWhile_append, ← trimStart, hvalue]
        exact Text.trimStart_eq_nil hpad
      rw [← List.append_assoc, Text.trimStart_append_cons (by decide), hblank]
      rfl
    exact ⟨[], by simp, by rw [hfield, hbrace, hvalue]; rfl⟩
  · exact ⟨pad, hpad, by rw [hfield, trimStart_append_of_ne hvalue]⟩

/-- A closing brace behind a field with a balanced value closes the entry. -/
theorem closesEntry_closed (hvalue : Value.balance value = 0) (hlast : value.getLast? ≠ some '\\')
    (hpad : ∀ c ∈ pad, isBlank c = true) : closesEntry (value ++ (pad ++ ['}'])) = true := by
  have hbrace : Value.balance ['}'] = -1 := by decide
  rw [closesEntry, Value.balance_append hlast, Value.balance_append (Value.getLast?_blanks hpad),
    hvalue, Value.balance_blanks hpad, hbrace, ← List.append_assoc, List.getLast?_concat]
  rfl

/-- A header line with a field and a closing brace behind it. -/
theorem header_closed {beside : List Char} (hhead : classify head = .header kind key [])
    (hfield : field? (trim beside) = some (name, value)) (hvalue : Value.balance value = 0)
    (hlast : value.getLast? ≠ some '\\') :
    ∃ rest gap, classify (head ++ (beside ++ ['}'])) = .header kind key rest ∧
      (∀ c ∈ gap, isBlank c = true) ∧ field? (trim rest) = some (name, value ++ (gap ++ ['}'])) ∧
      closesEntry (value ++ (gap ++ ['}'])) = true := by
  obtain ⟨rest, hraw, hrest⟩ := classify_append hhead (beside ++ ['}'])
  have hfilled : trim beside ≠ [] := by
    intro hnil
    rw [hnil] at hfield
    cases hfield
  obtain ⟨pad, hpad, hclosed⟩ := trim_closed hfilled
  obtain ⟨gap, hgap, hfound⟩ := field?_closed hfield hpad
  refine ⟨rest, gap, hraw, hgap, ?_, closesEntry_closed hvalue hlast hgap⟩
  rw [hrest, hclosed, hfound]

theorem classify_of_trim (h : field? (trim raw) = some (name, value)) :
    classify raw = .fieldStart name value := by
  obtain ⟨-, hname, -, -, hfilled⟩ := field_parts h
  cases hraw : trim raw with
  | nil =>
      rw [hraw] at hname
      rw [← hname] at hfilled
      cases hfilled
  | cons c rest =>
      have hc : isNameChar c = true := by
        rw [hraw] at hname
        by_contra hother
        rw [List.takeWhile_cons_of_neg hother] at hname
        rw [← hname] at hfilled
        cases hfilled
      have htight : Text.Tight (c :: rest) := hraw ▸ Text.tight_trim raw
      have hnone : ∀ b ∈ ([] : List Char), isBlank b = true := by simp
      have hline : classify (c :: rest) = .fieldStart name value :=
        classify_of_field hc htight (hraw ▸ h) hnone
      rw [← hline, classify, classify, htight.trim_eq, hraw]

/-! ## The reader on header lines -/

/-- What is yielded up to a boundary: what the lines before it yield, and the entry that they leave
open, cut off there. -/
def yieldBefore (path : SourcePath) (before : List (List Char)) : Yield :=
  let (c, y) := stepAll path .start 0 before
  y ++ (atEnd c before.length).cutOffAt (before.length + 1)

/-- The entry of a header behind some lines. -/
def entryBehind (path : SourcePath) (before : List (List Char)) (kind key : List Char) : Entry :=
  headerEntry path (before.length + 1) kind key (stepAll path .start 0 before).1.pending

theorem stepAll_header (h : classify raw = .header kind key rest) :
    stepAll path .start 0 (before ++ [raw]) =
      let (state, yield) := headerRest (entryBehind path before kind key) (before.length + 1) rest
      (⟨state, []⟩, yieldBefore path before ++ yield) := by
  rcases hbefore : stepAll path .start 0 before with ⟨c, y⟩
  have hboundary : (classify raw).isBoundary = true := by
    rw [h]
    rfl
  have hafresh : step path ⟨.outside 0, c.pending⟩ (0 + before.length + 1) raw =
      stepOutside path (before.length + 1) raw c.pending (.header kind key rest) := by
    simp [step, h]
  have hstep := step_boundary path c (0 + before.length) hboundary
  rw [hafresh] at hstep
  rw [stepAll_append hbefore (stepAll_singleton hstep), ← Yield.append_assoc, yieldBefore,
    entryBehind, hbefore, Nat.zero_add]
  rfl

/-- The entry of a header behind some lines, its first field open since a line. -/
def openBehind (path : SourcePath) (before : List (List Char)) (kind key : List Char) (line : Nat)
    (name value : List Char) : OpenEntry :=
  ⟨entryBehind path before kind key, some (.start line name value)⟩

section Headers

variable {below closing : List Char} (hhead : classify head = .header kind key [])
include hhead

/-- A header with nothing behind its comma. -/
theorem stepAll_alone : stepAll path .start 0 (before ++ [head]) =
    (⟨.inEntry ⟨entryBehind path before kind key, none⟩, []⟩, yieldBefore path before) := by
  rw [stepAll_header hhead, headerRest_eq]
  exact congrArg _ (Yield.append_empty _)

/-- The first field on the line below the header. -/
theorem stepAll_below (hbelow : classify below = .fieldStart name value) :
    stepAll path .start 0 (before ++ [head, below]) =
      (⟨.inEntry (openBehind path before kind key (before.length + 2) name value), []⟩,
        yieldBefore path before) := by
  have hline : 0 + (before ++ [head]).length + 1 = before.length + 2 := by simp
  have hstep : step path ⟨.inEntry ⟨entryBehind path before kind key, none⟩, []⟩
        (0 + (before ++ [head]).length + 1) below =
      (⟨.inEntry (openBehind path before kind key (before.length + 2) name value), []⟩,
        .empty) := by
    simp only [step, hbelow, hline]
    rfl
  have hboth := stepAll_append (stepAll_alone hhead) (stepAll_singleton hstep)
  rwa [List.append_assoc, Yield.append_empty] at hboth

/-- The entry closed on a third line. -/
theorem stepAll_closing (hbelow : classify below = .fieldStart name value)
    (hclosing : classify closing = .close) :
    stepAll path .start 0 (before ++ [head, below, closing]) =
      (⟨.outside 0, []⟩, yieldBefore path before ++
        finish (openBehind path before kind key (before.length + 2) name value)
          (before.length + 3)) := by
  have hline : 0 + (before ++ [head, below]).length + 1 = before.length + 3 := by simp
  have hstep : step path
        ⟨.inEntry (openBehind path before kind key (before.length + 2) name value), []⟩
        (0 + (before ++ [head, below]).length + 1) closing =
      (⟨.outside 0, []⟩, finish (openBehind path before kind key (before.length + 2) name value)
        (before.length + 3)) := by
    simp only [step, hclosing, hline]
    rfl
  have hall := stepAll_append (stepAll_below hhead hbelow) (stepAll_singleton hstep)
  rwa [List.append_assoc] at hall

end Headers

/-- The field on the header line: the entry stays open. -/
theorem stepAll_beside (hraw : classify raw = .header kind key rest)
    (hfield : field? (trim rest) = some (name, value)) (hopen : closesEntry value = false) :
    stepAll path .start 0 (before ++ [raw]) =
      (⟨.inEntry (openBehind path before kind key (before.length + 1) name value), []⟩,
        yieldBefore path before) := by
  rw [stepAll_header hraw, headerRest_eq, closesItself_of_field hfield, hopen,
    headerOpen_of_field hfield, hopen]
  exact congrArg _ (Yield.append_empty _)

/-- The field and the closing brace on the header line. -/
theorem stepAll_closed (hraw : classify raw = .header kind key rest)
    (hpad : ∀ c ∈ pad, isBlank c = true)
    (hfield : field? (trim rest) = some (name, value ++ (pad ++ ['}'])))
    (hcloses : closesEntry (value ++ (pad ++ ['}'])) = true) :
    stepAll path .start 0 (before ++ [raw]) =
      (⟨.outside 0, []⟩, yieldBefore path before ++
        finish (openBehind path before kind key (before.length + 1) name value)
          (before.length + 1)) := by
  have hvalue : (value ++ (pad ++ ['}'])).dropLast = value ++ pad := by
    rw [← List.append_assoc, List.dropLast_concat]
  rw [stepAll_header hraw, headerRest_eq, closesItself_of_field hfield, hcloses,
    headerOpen_of_field hfield, hcloses, if_pos rfl, if_pos rfl, hvalue, start_append_blanks hpad]
  rfl

/-! ## Lines joined -/

/-- The number that a line has once the `n` lines after line `k` are joined on to it. -/
def merged (k n line : Nat) : Nat :=
  if line ≤ k then line else max k (line - n)

theorem monotone_merged (k n : Nat) : Monotone (merged k n) := by
  intro a b h
  unfold merged
  split <;> split <;> omega

theorem merged_of_le (h : line ≤ k) (n : Nat) : merged k n line = line := by
  rw [merged, if_pos h]

theorem merged_of_ge (h : k + n ≤ line) : merged k n line = line - n := by
  unfold merged
  split <;> omega

/-- A line that is joined on to line `k` has its number. -/
theorem merged_of_joined (hk : k ≤ line) (hn : line ≤ k + n) : merged k n line = k := by
  unfold merged
  split <;> omega

theorem inStep_merged_before (k n : Nat) : InStep (merged k n) 0 k := by
  intro line _ hline
  rw [merged_of_le (by omega), merged_of_le (by omega)]

theorem inStep_merged_behind (k n count : Nat) : InStep (merged k n) (k + n) count := by
  intro line hline _
  rw [merged_of_ge (by omega), merged_of_ge (by omega)]
  omega

section Joined

variable {below closing : List Char} (hhead : classify head = .header kind key [])
include hhead

/-- Nothing changes up to a header when lines behind it are joined on to it. -/
theorem merged_header (path : SourcePath) (before : List (List Char)) (n : Nat) :
    (entryBehind path before kind key).renumber (merged (before.length + 1) n) =
        entryBehind path before kind key ∧
      (yieldBefore path before).renumber (merged (before.length + 1) n) =
        yieldBefore path before := by
  have hlength : (before ++ [head]).length = before.length + 1 := List.length_append
  have hsame := stepAll_renumber (monotone_merged (before.length + 1) n) path .start 0
    (before ++ [head]) (hlength ▸ inStep_merged_before _ n)
  have hstart : Cursor.start.renumber (merged (before.length + 1) n) = .start := rfl
  rw [hstart, merged_of_le (Nat.zero_le _), stepAll_alone hhead] at hsame
  obtain ⟨hcursor, hyield⟩ := Prod.mk.inj hsame
  simp only [Cursor.renumber, State.renumber, OpenEntry.renumber, Cursor.mk.injEq,
    State.inEntry.injEq, OpenEntry.mk.injEq] at hcursor
  exact ⟨hcursor.1.1.symm, hyield.symm⟩

/-- The field is on the header line if its line is joined on to that. -/
theorem merged_openBehind (path : SourcePath) (before : List (List Char)) {n : Nat} (hn : 1 ≤ n)
    (name value : List Char) :
    (openBehind path before kind key (before.length + 2) name value).renumber
        (merged (before.length + 1) n) =
      openBehind path before kind key (before.length + 1) name value := by
  obtain ⟨hentry, -⟩ := merged_header hhead path before n
  have hline : merged (before.length + 1) n (before.length + 2) = before.length + 1 :=
    merged_of_joined (by omega) (by omega)
  show (⟨(entryBehind path before kind key).renumber (merged (before.length + 1) n),
    some (.start (merged (before.length + 1) n (before.length + 2)) name value)⟩ : OpenEntry) = _
  rw [hentry, hline]
  rfl

/-- The field is read alike beside the header and below it. -/
theorem stepAll_beside_below (path : SourcePath) (before : List (List Char))
    (hraw : classify raw = .header kind key rest)
    (hfield : field? (trim rest) = some (name, value)) (hopen : closesEntry value = false)
    (hbelow : classify below = .fieldStart name value) :
    stepAll path .start 0 (before ++ [raw]) = renumberResult (merged (before.length + 1) 1)
      (stepAll path .start 0 (before ++ [head, below])) := by
  rw [stepAll_beside hraw hfield hopen, stepAll_below hhead hbelow, renumberResult, Cursor.renumber,
    State.renumber, merged_openBehind hhead path before (Nat.le_refl 1),
    (merged_header hhead path before 1).2]

/-- The entry is read alike on one line and on three. -/
theorem stepAll_closed_closing (path : SourcePath) (before : List (List Char))
    (hraw : classify raw = .header kind key rest)
    (hpad : ∀ c ∈ pad, isBlank c = true)
    (hfield : field? (trim rest) = some (name, value ++ (pad ++ ['}'])))
    (hcloses : closesEntry (value ++ (pad ++ ['}'])) = true)
    (hbelow : classify below = .fieldStart name value) (hclosing : classify closing = .close) :
    stepAll path .start 0 (before ++ [raw]) = renumberResult (merged (before.length + 1) 2)
      (stepAll path .start 0 (before ++ [head, below, closing])) := by
  have hfinish := finish_renumber (monotone_merged (before.length + 1) 2)
    (openBehind path before kind key (before.length + 2) name value) (before.length + 3)
  rw [merged_openBehind hhead path before (by omega),
    merged_of_joined (by omega) (by omega)] at hfinish
  rw [stepAll_closed hraw hpad hfield hcloses, stepAll_closing hhead hbelow hclosing, renumberResult,
    Yield.renumber_append, (merged_header hhead path before 2).2, ← hfinish]
  rfl

end Joined

/-! ## Whole files -/

/-- A line may stand for several if it leaves the reader as they do, but for the numbers. -/
theorem read_merged {one : List Char} {several after : List (List Char)} {joined apart : String}
    (hcount : several.length = n + 1)
    (hbegin : stepAll path .start 0 (before ++ [one]) =
      renumberResult (merged (before.length + 1) n) (stepAll path .start 0 (before ++ several)))
    (hjoined : Text.lines joined.toList = before ++ one :: after)
    (hapart : Text.lines apart.toList = before ++ several ++ after) :
    read path joined = (read path apart).renumber (merged (before.length + 1) n) := by
  have hlength : (before ++ several).length = before.length + 1 + n := by
    rw [List.length_append, hcount]
    omega
  have hlast : merged (before.length + 1) n (before ++ several).length =
      (before ++ [one]).length := by
    rw [hlength, List.length_append]
    exact merged_of_joined (Nat.le_add_right _ n) (Nat.le_refl _)
  rw [read, read, hjoined, hapart, List.append_cons]
  exact readLines_exchange (monotone_merged _ _) hbegin hlast
    (hlength ▸ inStep_merged_behind _ n after.length)

/-- A field may stand beside its header or below it: unless its value closes more braces than it opens
and ends in the brace that does, the same entries and complaints come, under the numbers that lines have
when the line below is joined on to the header.  If its value is balanced and does not end in a
backslash, the closing brace may stand on that line too: the entry is closed there as it is on a line of
its own, and again the same entries and complaints come. -/
theorem read_layout (path : SourcePath) (before after : List (List Char))
    {beside below : List Char} (hhead : classify head = .header kind key [])
    (hfield : field? (trim beside) = some (name, value)) (hbelow : trim below = trim beside) :
    (0 ≤ Value.balance value ∨ value.getLast? ≠ some '}' → ∀ joined apart : String,
        Text.lines joined.toList = before ++ (head ++ beside) :: after →
        Text.lines apart.toList = before ++ head :: below :: after →
          read path joined = (read path apart).renumber (merged (before.length + 1) 1)) ∧
      (Value.balance value = 0 → value.getLast? ≠ some '\\' →
        ∀ (closing : List Char) (joined apart : String), classify closing = .close →
          Text.lines joined.toList = before ++ (head ++ (beside ++ ['}'])) :: after →
          Text.lines apart.toList = before ++ head :: below :: closing :: after →
            read path joined = (read path apart).renumber (merged (before.length + 1) 2) ∧
              (stepAll path .start 0 (before ++ [head ++ (beside ++ ['}'])])).1 = .start ∧
              (stepAll path .start 0 (before ++ [head, below, closing])).1 = .start) := by
  have hstart : classify below = .fieldStart name value :=
    classify_of_trim (hbelow.symm ▸ hfield)
  constructor
  · intro hvalue joined apart hjoined hapart
    obtain ⟨rest, hraw, hrest⟩ := classify_append hhead beside
    have hopen : closesEntry value = false := by
      rw [closesEntry, Bool.and_eq_false_iff, decide_eq_false_iff_not, beq_eq_false_iff_ne]
      exact hvalue.imp_left fun h => by omega
    have hbegin := stepAll_beside_below hhead path before hraw (hrest.symm ▸ hfield) hopen hstart
    exact read_merged rfl hbegin hjoined (by simpa using hapart)
  · intro hvalue hlast closing joined apart hclosing hjoined hapart
    obtain ⟨rest, gap, hraw, hgap, hclosed, hcloses⟩ := header_closed hhead hfield hvalue hlast
    have hbegin := stepAll_closed_closing hhead path before hraw hgap hclosed hcloses hstart
      hclosing
    refine ⟨read_merged rfl hbegin hjoined (by simpa using hapart), ?_, ?_⟩
    · rw [stepAll_closed hraw hgap hclosed hcloses]
      rfl
    · rw [stepAll_closing hhead hstart hclosing]
      rfl

/-- The first field beside its header, between an entry that is cut off there and one that cuts off. -/
def besideText : String :=
  "@misc\x7bo,\n@book\x7bk, title = \x7bA \x7bb\x7d\x7d\n@misc\x7bz,\n"

/-- The same field below its header. -/
def belowText : String :=
  "@misc\x7bo,\n@book\x7bk,\n  title = \x7bA \x7bb\x7d\x7d\n@misc\x7bz,\n"

/-- The entry closed on its header line. -/
def oneLineText : String :=
  "@misc\x7bo,\n@book\x7bk, title = \x7bA \x7bb\x7d\x7d\x7d\n@misc\x7bz,\n"

/-- The entry closed on a line of its own. -/
def threeLinesText : String :=
  "@misc\x7bo,\n@book\x7bk,\n  title = \x7bA \x7bb\x7d\x7d\n\x7d,\n@misc\x7bz,\n"

theorem read_layout_titled :
    classify "@book\x7bk,".toList = .header "book".toList "k".toList [] ∧
      field? (trim " title = \x7bA \x7bb\x7d\x7d".toList) =
        some ("title".toList, "\x7bA \x7bb\x7d\x7d".toList) ∧
      read ⟨"refs.bib"⟩ besideText = (read ⟨"refs.bib"⟩ belowText).renumber (merged 2 1) ∧
      read ⟨"refs.bib"⟩ oneLineText = (read ⟨"refs.bib"⟩ threeLinesText).renumber (merged 2 2) := by
  have hhead : classify "@book\x7bk,".toList = .header "book".toList "k".toList [] := by
    decide +kernel
  have hfield : field? (trim " title = \x7bA \x7bb\x7d\x7d".toList) =
      some ("title".toList, "\x7bA \x7bb\x7d\x7d".toList) := by
    decide +kernel
  have hbelow : trim "  title = \x7bA \x7bb\x7d\x7d".toList =
      trim " title = \x7bA \x7bb\x7d\x7d".toList := by
    decide +kernel
  obtain ⟨hopen, hclosed⟩ := read_layout ⟨"refs.bib"⟩ ["@misc\x7bo,".toList]
    ["@misc\x7bz,".toList] hhead hfield hbelow
  refine ⟨hhead, hfield, ?_, ?_⟩
  · exact hopen (.inl (by decide)) besideText belowText (by decide +kernel) (by decide +kernel)
  · exact (hclosed (by decide) (by decide) "\x7d,".toList oneLineText threeLinesText
      (by decide +kernel) (by decide +kernel) (by decide +kernel)).1

example : (read ⟨"refs.bib"⟩ besideText).complaints.map (·.message) =
    ["Entry \"o\" is not terminated before line 2", "Entry \"k\" is not terminated before line 3",
      "Entry \"z\" is not terminated at end of file"] := by
  decide +kernel

end BibAudit.Bib
