/-
# BibAudit.Proofs.Bib.Inert — text between entries says nothing.

Where neither an entry nor a special block is open, blank lines, comments, text and field lines may be
put in, and so may whole special blocks.  A special block passes over whatever its braces hold, lines
that look like fields, closing lines and directives included; only a line with an at sign would be
read.  The reader comes out of such lines as it went in: between entries, with the same directives
waiting.  What it reads after them is as before, so many lines further down.
-/
import BibAudit.Proofs.Bib.Displace
import BibAudit.Proofs.Bib.Resume

namespace BibAudit.Bib

variable {path : SourcePath} {c d : Cursor} {last : Nat} {raw first : List Char}
  {ls inner before inserted after : List (List Char)}

/-! ## Lines that say nothing -/

/-- The line stands for nothing when it stands between entries. -/
def LineKind.isIdle : LineKind → Bool
  | .blank | .comment | .text | .fieldStart .. => true
  | _ => false

/-- A whole special block: its first line, and the lines up to the one that closes its braces. -/
structure SpecialBlock (first : List Char) (inner : List (List Char)) : Prop where
  opens : classify first = .special
  inside : ∀ raw ∈ inner, (Text.trim raw).head? ≠ some '@'
  goesOn : ∀ part ∈ inner.inits, part ≠ inner → 0 < braces (first :: part)
  closes : braces (first :: inner) ≤ 0

instance (first : List Char) (inner : List (List Char)) : Decidable (SpecialBlock first inner) :=
  decidable_of_iff (classify first = .special ∧ (∀ raw ∈ inner, (Text.trim raw).head? ≠ some '@') ∧
    (∀ part ∈ inner.inits, part ≠ inner → 0 < braces (first :: part)) ∧
    braces (first :: inner) ≤ 0)
    ⟨fun ⟨ho, hi, hg, hc⟩ => ⟨ho, hi, hg, hc⟩, fun h => ⟨h.opens, h.inside, h.goesOn, h.closes⟩⟩

/-- Idle lines and whole special blocks, in any order. -/
inductive Inert : List (List Char) → Prop
  | nil : Inert []
  | line {raw : List Char} {rest : List (List Char)} (h : (classify raw).isIdle = true)
      (hrest : Inert rest) : Inert (raw :: rest)
  | block {first : List Char} {inner rest : List (List Char)} (h : SpecialBlock first inner)
      (hrest : Inert rest) : Inert (first :: inner ++ rest)

/-- A line is a boundary only if it begins with an at sign. -/
theorem isBoundary_of_head_ne (h : (Text.trim raw).head? ≠ some '@') :
    (classify raw).isBoundary = false := by
  rw [classify]
  split
  · rfl
  · split <;> rfl
  · rfl
  · next rest heq =>
      rw [heq] at h
      exact absurd rfl h
  · split <;> rfl

/-! ## Between entries -/

/-- No entry is open, and no special block. -/
def Cursor.Between (c : Cursor) : Prop :=
  match c.state with
  | .outside skipping => skipping ≤ 0
  | .inEntry _ => False

instance (c : Cursor) : Decidable c.Between :=
  match c with
  | ⟨.outside skipping, _⟩ => inferInstanceAs (Decidable (skipping ≤ 0))
  | ⟨.inEntry _, _⟩ => inferInstanceAs (Decidable False)

theorem Cursor.Between.outside (h : c.Between) :
    ∃ skipping : Int, skipping ≤ 0 ∧ c = ⟨.outside skipping, c.pending⟩ := by
  obtain ⟨state, pending⟩ := c
  cases state with
  | outside skipping => exact ⟨skipping, h, rfl⟩
  | inEntry o => exact h.elim

theorem Cursor.Between.shift_eq (h : c.Between) (n : Nat) : c.shift n = c := by
  obtain ⟨skipping, -, hc⟩ := h.outside
  rw [hc]
  rfl

theorem Cursor.Between.atEnd_eq (h : c.Between) (last : Nat) : atEnd c last = .empty := by
  obtain ⟨skipping, -, hc⟩ := h.outside
  rw [hc]
  rfl

theorem step_between (h : c.Between) (line : Nat) (raw : List Char) :
    step path c line raw = stepOutside path line raw c.pending (classify raw) := by
  obtain ⟨skipping, hskipping, hc⟩ := h.outside
  have hclosed : ¬ 0 < skipping := by omega
  rw [hc]
  simp [step, hclosed]

/-- Between entries, nothing but the waiting directives bears on what is read, and the number of lines
before it on the numbers alone. -/
theorem readLines_between (hc : c.Between) (hd : d.Between) (hp : d.pending = c.pending)
    (last n : Nat) (ls : List (List Char)) :
    readLines path d (last + n) ls = (readLines path c last ls).shift n := by
  rw [← readLines_shift, hc.shift_eq]
  cases ls with
  | nil => exact (hd.atEnd_eq _).trans (hc.atEnd_eq _).symm
  | cons raw rest => rw [readLines, readLines, step_between hc, step_between hd, hp]

theorem pending_between (hc : c.Between) (hd : d.Between) (hp : d.pending = c.pending)
    (last n : Nat) (ls : List (List Char)) :
    (stepAll path d (last + n) ls).1.pending = (stepAll path c last ls).1.pending := by
  have hshift : (stepAll path c (last + n) ls).1.pending = (stepAll path c last ls).1.pending := by
    have h := stepAll_shift n path c last ls
    rw [hc.shift_eq] at h
    rw [h]
    rfl
  rw [← hshift]
  cases ls with
  | nil => exact hp
  | cons raw rest => rw [stepAll, stepAll, step_between hc, step_between hd, hp]

/-- What is read from between entries speaks of the lines that were read. -/
theorem Cursor.Between.within (hc : c.Between) (path : SourcePath) (last : Nat)
    (ls : List (List Char)) :
    (readLines path c last ls).Within (last + 1) (last + ls.length) := by
  have hsound : (readLines path c last ls).Sound path (last + 1) (last + ls.length) := by
    obtain ⟨skipping, -, hc⟩ := hc.outside
    have hplaced : Cursor.Placed path last ⟨.outside skipping, c.pending⟩ := trivial
    rw [hc]
    exact readLines_continues ls hplaced
  exact within_of_sound hsound (namesWithin_readLines path c last ls)

/-! ## Inert lines -/

/-- The reader goes over the inner lines of a block by counting braces; the induction is on the inner
lines left, and some brace is open before each. -/
theorem stepAll_inner {depth : Int} (pending : List Directive)
    (hinside : ∀ raw ∈ inner, (Text.trim raw).head? ≠ some '@')
    (hopen : ∀ part ∈ inner.inits, part ≠ inner → 0 < depth + braces part) :
    stepAll path ⟨.outside depth, pending⟩ last inner =
      (⟨.outside (depth + braces inner), pending⟩, .empty) := by
  induction inner generalizing depth last with
  | nil => simp [braces]
  | cons raw rest ih =>
      have hpos : 0 < depth := by
        have h := hopen [] (by simp) (by simp)
        simpa [braces] using h
      have hbraces : ∀ part, depth + braces (raw :: part) =
          depth + Value.balance raw + braces part := by
        intro part
        rw [braces_cons, Int.add_assoc]
      have hstep : step path ⟨.outside depth, pending⟩ (last + 1) raw =
          (⟨.outside (depth + Value.balance raw), pending⟩, .empty) := by
        have hraw := isBoundary_of_head_ne (hinside raw List.mem_cons_self)
        simp [step, hpos, hraw]
      have hrest : stepAll path ⟨.outside (depth + Value.balance raw), pending⟩ (last + 1) rest =
          (⟨.outside (depth + Value.balance raw + braces rest), pending⟩, .empty) := by
        refine ih (fun raw hraw => hinside raw (List.mem_cons_of_mem _ hraw)) ?_
        intro part hpart hne
        rw [← hbraces]
        refine hopen (raw :: part) ?_ (by simpa using hne)
        rw [List.mem_inits] at hpart ⊢
        exact List.cons_prefix_cons.mpr ⟨rfl, hpart⟩
      rw [stepAll_cons hstep hrest, Yield.append_empty, hbraces]

/-- A block that its own first line does not close opens the braces of that line. -/
theorem stepAll_block (h : SpecialBlock first inner) (hc : c.Between) :
    ∃ d : Cursor, d.Between ∧ d.pending = c.pending ∧
      stepAll path c last (first :: inner) = (d, .empty) := by
  have hstep : step path c (last + 1) first =
      (⟨.outside (max (Value.balance first) 0), c.pending⟩, .empty) := by
    rw [step_between hc, h.opens]
    rfl
  have hcloses := h.closes
  rw [braces_cons] at hcloses
  cases inner with
  | nil =>
      refine ⟨⟨.outside (max (Value.balance first) 0), c.pending⟩, ?_, rfl, stepAll_singleton hstep⟩
      simp only [braces, List.map_nil, List.sum_nil] at hcloses
      show max (Value.balance first) 0 ≤ 0
      omega
  | cons raw rest =>
      have hfirst : 0 < Value.balance first := by
        have h := h.goesOn [] (by simp) (by simp)
        simpa [braces] using h
      rw [Int.max_eq_left (Int.le_of_lt hfirst)] at hstep
      have hinner : stepAll path ⟨.outside (Value.balance first), c.pending⟩ (last + 1)
            (raw :: rest) =
          (⟨.outside (Value.balance first + braces (raw :: rest)), c.pending⟩, .empty) := by
        refine stepAll_inner c.pending h.inside fun part hpart hne => ?_
        rw [← braces_cons]
        exact h.goesOn part hpart hne
      refine ⟨⟨.outside (Value.balance first + braces (raw :: rest)), c.pending⟩, hcloses, rfl, ?_⟩
      rw [stepAll_cons hstep hinner, Yield.append_empty]

/-- Inert lines yield nothing and leave the reader between entries, with the same directives
waiting. -/
theorem stepAll_inert (h : Inert ls) (hc : c.Between) :
    ∃ d : Cursor, d.Between ∧ d.pending = c.pending ∧ stepAll path c last ls = (d, .empty) := by
  induction h generalizing c last with
  | nil => exact ⟨c, hc, rfl, rfl⟩
  | @line raw rest hidle _ ih =>
      have hstep : step path c (last + 1) raw = (⟨.outside 0, c.pending⟩, .empty) := by
        rw [step_between hc]
        cases hkind : classify raw with
        | blank | comment | text | fieldStart => rfl
        | _ =>
            rw [hkind] at hidle
            cases hidle
      have hc' : Cursor.Between ⟨.outside 0, c.pending⟩ := Int.le_refl 0
      obtain ⟨d, hd, hp, hrest⟩ := ih hc'
      refine ⟨d, hd, hp, ?_⟩
      rw [stepAll_cons hstep hrest, Yield.append_empty]
  | @block first inner rest hblock _ ih =>
      obtain ⟨c', hc', hp', hstep⟩ := stepAll_block hblock hc
      obtain ⟨d, hd, hp, hrest⟩ := ih hc'
      refine ⟨d, hd, hp.trans hp', ?_⟩
      rw [stepAll_append hstep hrest, Yield.append_empty]

/-! ## Lines put into a file -/

theorem stepAll_append_cursor {ms : List (List Char)} {y : Yield}
    (h : stepAll path c last ls = (d, y)) :
    (stepAll path c last (ls ++ ms)).1 = (stepAll path d (last + ls.length) ms).1 := by
  rw [stepAll_append h rfl]

/-- What was read up to a place between entries does not speak of the lines put in there. -/
theorem displace_stepAll {y : Yield} (h : stepAll path .start 0 before = (c, y)) (hc : c.Between)
    (n : Nat) : y.displace before.length n = y := by
  have hread : readLines path .start 0 (before ++ []) =
      y ++ readLines path c (0 + before.length) [] := readLines_append h
  rw [List.append_nil, readLines, hc.atEnd_eq, Yield.append_empty] at hread
  have hstart : Cursor.start.Between := Int.le_refl 0
  have hwithin := hstart.within path 0 before
  rw [hread] at hwithin
  exact hwithin.displace_eq (by omega) n

/-- Idle lines and whole special blocks that are put in between entries change nothing but the numbers
of the lines after them: no entry, field or complaint comes, goes or changes, and neither does a
directive, taken by a header or waiting at the end. -/
theorem read_insert {text longer : String} (path : SourcePath)
    (htext : Text.lines text.toList = before ++ after)
    (hlonger : Text.lines longer.toList = before ++ inserted ++ after)
    (hbetween : (stepAll path .start 0 before).1.Between) (hinert : Inert inserted) :
    read path longer = (read path text).displace before.length inserted.length ∧
      leftWaiting path longer = leftWaiting path text := by
  rcases hbefore : stepAll path .start 0 before with ⟨c, y⟩
  have hc : c.Between := by
    rw [hbefore] at hbetween
    exact hbetween
  obtain ⟨d, hd, hp, hinserted⟩ : ∃ d : Cursor, d.Between ∧ d.pending = c.pending ∧
      stepAll path c (0 + before.length) inserted = (d, .empty) := stepAll_inert hinert hc
  have hlines : stepAll path .start 0 (before ++ inserted) = (d, y) := by
    rw [stepAll_append hbefore hinserted, Yield.append_empty]
  have hlength : 0 + (before ++ inserted).length = before.length + inserted.length := by
    rw [List.length_append]; omega
  refine ⟨?_, ?_⟩
  · -- What stands before the lines put in stays, and what follows them is shifted.
    have hstays := displace_stepAll hbefore hc inserted.length
    have hlater := (hc.within path before.length after).displace_eq_shift (Nat.lt_succ_self _)
      inserted.length
    rw [read, read, htext, hlonger, readLines_append hbefore, readLines_append hlines, hlength,
      Nat.zero_add, readLines_between hc hd hp, Yield.displace_append, hstays, hlater]
  · rw [leftWaiting, leftWaiting, cursorAfter, cursorAfter, htext, hlonger,
      stepAll_append_cursor hbefore, stepAll_append_cursor hlines, hlength, Nat.zero_add,
      pending_between hc hd hp]

/-- An entry and a directive that waits. -/
def linesBefore : List (List Char) :=
  ["@misc\x7ba,".toList, "\x7d".toList, "% LINT doi waits".toList]

/-- Idle lines and a special block with a field line, a directive and a closing line inside. -/
def linesPutIn : List (List Char) :=
  [] :: "plain text".toList :: ("@comment\x7bheld".toList ::
    ["  note = \x7by".toList, "% LINT isbn no".toList, "\x7d".toList, "\x7d".toList] ++ [])

/-- Two entries of which the second cuts off the first. -/
def linesAfter : List (List Char) :=
  ["@misc\x7bb,".toList, "@misc\x7bc,".toList, "\x7d".toList]

def shortText : String :=
  "@misc\x7ba,\n\x7d\n% LINT doi waits\n@misc\x7bb,\n@misc\x7bc,\n\x7d\n"

def longerText : String :=
  "@misc\x7ba,\n\x7d\n% LINT doi waits\n\nplain text\n@comment\x7bheld\n  note = \x7by\n" ++
    "% LINT isbn no\n\x7d\n\x7d\n@misc\x7bb,\n@misc\x7bc,\n\x7d\n"

theorem read_insert_block :
    Text.lines shortText.toList = linesBefore ++ linesAfter ∧
      Text.lines longerText.toList = linesBefore ++ linesPutIn ++ linesAfter ∧
      (stepAll ⟨"refs.bib"⟩ .start 0 linesBefore).1.Between ∧ Inert linesPutIn ∧
      read ⟨"refs.bib"⟩ longerText = (read ⟨"refs.bib"⟩ shortText).displace 3 7 ∧
      leftWaiting ⟨"refs.bib"⟩ longerText = leftWaiting ⟨"refs.bib"⟩ shortText := by
  have hshort : Text.lines shortText.toList = linesBefore ++ linesAfter := by decide +kernel
  have hlonger : Text.lines longerText.toList = linesBefore ++ linesPutIn ++ linesAfter := by
    decide +kernel
  have hbetween : (stepAll ⟨"refs.bib"⟩ .start 0 linesBefore).1.Between := by decide +kernel
  have hblock : SpecialBlock "@comment\x7bheld".toList
      ["  note = \x7by".toList, "% LINT isbn no".toList, "\x7d".toList, "\x7d".toList] := by
    decide +kernel
  have hinert : Inert linesPutIn := .line rfl (.line (by decide +kernel) (.block hblock .nil))
  exact ⟨hshort, hlonger, hbetween, hinert, read_insert ⟨"refs.bib"⟩ hshort hlonger hbetween hinert⟩

example : (read ⟨"refs.bib"⟩ longerText).complaints.map (·.message) =
    ["Entry \"b\" is not terminated before line 12"] := by
  decide +kernel

end BibAudit.Bib
