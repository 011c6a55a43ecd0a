/-
# BibAudit.Proofs.Bib.Headings — one entry for each header line.

Whatever a file holds, its entries are its header lines: every line that is classified as a header
gives one entry, in order, and no entry comes from anything else.  A header that meets an open entry
ends it, and one inside a special block ends the block, so none is passed over.

The invariant of the reader is that the headers read so far are those of the entries yielded, and of
the open entry if there is one, each as its header left it.
-/
import BibAudit.Proofs.Bib.Standing

namespace BibAudit

/-- What a header says of its entry, the type in small letters, and on which line it stands. -/
structure Heading where
  kind : String
  key : String
  line : Nat
deriving DecidableEq, Repr

/-- The heading of an entry. -/
def Entry.heading (e : Entry) : Heading :=
  ⟨e.kind, e.key, e.line⟩

namespace Bib

open Text (lowerAscii)

variable {line : Nat} {pending : List Directive}

/-! ## Headings -/

/-- The heading on a line of some kind. -/
def heading? (line : Nat) : LineKind → Option Heading
  | .header kind key _ => some ⟨lowerAscii (String.ofList kind), String.ofList key, line⟩
  | _ => none

/-- The headings on some lines, which follow the first `last` ones. -/
def headingsOn (last : Nat) (ls : List (List Char)) : List Heading :=
  (ls.zipIdx (last + 1)).filterMap fun (raw, line) => heading? line (classify raw)

/-- The header lines of a file. -/
def headings (text : String) : List Heading :=
  headingsOn 0 (Text.lines text.toList)

theorem headingsOn_cons (last : Nat) (raw : List Char) (rest : List (List Char)) :
    headingsOn last (raw :: rest) =
      (heading? (last + 1) (classify raw)).toList ++ headingsOn (last + 1) rest := by
  rw [headingsOn, List.zipIdx_cons, List.filterMap_cons]
  dsimp only
  cases heading? (last + 1) (classify raw) <;> rfl

/-- The heading of the entry that is open. -/
def Cursor.openHeading (c : Cursor) : List Heading :=
  match c.state with
  | .outside _ => []
  | .inEntry o => [o.entry.heading]

/-- The headings of the entries of a yield. -/
def Yield.headings (y : Yield) : List Heading :=
  y.entries.map Entry.heading

@[simp] theorem Yield.headings_append (y z : Yield) :
    (y ++ z).headings = y.headings ++ z.headings :=
  List.map_append

/-! ## Entries as their headers left them -/

/-- The entry that is open, as its header left it. -/
def Cursor.openBare (c : Cursor) : List Entry :=
  match c.state with
  | .outside _ => []
  | .inEntry o => [o.entry.bare]

/-- The entries of a yield, as their headers left them. -/
def Yield.bares (y : Yield) : List Entry :=
  y.entries.map Entry.bare

@[simp] theorem Yield.bares_append (y z : Yield) : (y ++ z).bares = y.bares ++ z.bares :=
  List.map_append

theorem Yield.map_bares (y : Yield) : y.bares.map Entry.heading = y.headings := by
  rw [Yield.bares, List.map_map]
  rfl

theorem Cursor.map_openBare (c : Cursor) : c.openBare.map Entry.heading = c.openHeading := by
  obtain ⟨state, pending⟩ := c
  cases state <;> rfl

theorem bares_finish (o : OpenEntry) (line : Nat) : (finish o line).bares = [o.entry.bare] :=
  congrArg (fun e => [e]) (bare_finishField o)

/-! ## Lines -/

/-- The entry that a header line begins, if `pending` directives wait there. -/
def begun? (path : SourcePath) (line : Nat) (pending : List Directive) :
    LineKind → Option Entry
  | .header kind key _ => some (headerEntry path line kind key pending)
  | _ => none

theorem begun?_eq_none {kind : LineKind} (h : kind.isBoundary = false) (path : SourcePath) :
    begun? path line pending kind = none := by
  cases kind with
  | header kind key rest => cases h
  | _ => rfl

theorem bare_headerEntry (path : SourcePath) (line : Nat) (kind key : List Char)
    (pending : List Directive) :
    (headerEntry path line kind key pending).bare = headerEntry path line kind key pending := by
  rw [headerEntry_eq]
  rfl

theorem heading_headerEntry (path : SourcePath) (line : Nat) (kind key : List Char)
    (pending : List Directive) :
    (headerEntry path line kind key pending).heading =
      ⟨lowerAscii (String.ofList kind), String.ofList key, line⟩ := by
  rw [headerEntry_eq]
  rfl

theorem map_begun? (path : SourcePath) (line : Nat) (pending : List Directive)
    (kind : LineKind) :
    (begun? path line pending kind).map Entry.heading = heading? line kind := by
  cases kind with
  | header kind key rest => exact congrArg some (heading_headerEntry path line kind key pending)
  | _ => rfl

/-- A header line yields its entry or leaves it open. -/
theorem bares_headerRest (entry : Entry) (line : Nat) (rest : List Char) :
    (headerRest entry line rest).2.bares ++
        Cursor.openBare ⟨(headerRest entry line rest).1, pending⟩ = [entry.bare] := by
  rw [headerRest_eq]
  split
  · show (finish (headerOpen entry line rest) line).bares ++ [] = _
    rw [bares_finish]
    rfl
  · rfl

/-- Between entries, a line yields or leaves open the entry that it begins and no other. -/
theorem bares_stepOutside (path : SourcePath) (line : Nat) (raw : List Char)
    (pending : List Directive) (kind : LineKind) :
    (stepOutside path line raw pending kind).2.bares ++
        (stepOutside path line raw pending kind).1.openBare =
      (begun? path line pending kind).toList := by
  cases kind with
  | header kind key rest =>
      refine (bares_headerRest _ line rest).trans ?_
      rw [bare_headerEntry]
      rfl
  | _ => rfl

/-- A line that does not end the open entry by its kind yields that entry or leaves it open. -/
theorem bares_stepInside (o : OpenEntry) (line : Nat) (raw : List Char)
    (pending : List Directive) (kind : LineKind) :
    (stepInside o line raw pending kind).2.bares ++
        (stepInside o line raw pending kind).1.openBare = [o.entry.bare] := by
  cases kind with
  | close =>
      show (finish o line).bares ++ [] = _
      rw [bares_finish, List.append_nil]
  | fieldStart name value =>
      show [] ++ [(finishField o).1.bare] = _
      rw [bare_finishField]
      rfl
  | comment =>
      rw [stepInside]
      cases o.field.any OpenField.insideBraces <;> rfl
  | _ => rfl

/-- One line: the open entry is yielded or stays open, and so is the entry that the line begins. -/
theorem bares_step (path : SourcePath) (c : Cursor) (line : Nat) (raw : List Char) :
    (step path c line raw).2.bares ++ (step path c line raw).1.openBare =
      c.openBare ++ (begun? path line c.pending (classify raw)).toList := by
  obtain ⟨state, pending⟩ := c
  cases state with
  | outside skipping =>
      simp only [step]
      split
      · next hskips =>
          -- A special block is left at the next boundary, so a line inside begins no entry.
          rw [begun?_eq_none (skips_iff.mp hskips).2]
          rfl
      · exact bares_stepOutside path line raw pending (classify raw)
  | inEntry o =>
      simp only [step]
      split
      · show (Yield.complaining _ ++ finish o (line - 1) ++ _).bares ++ _ = [o.entry.bare] ++ _
        rw [Yield.bares_append, Yield.bares_append, bares_finish, List.append_assoc,
          bares_stepOutside]
        rfl
      · next hstays =>
          rw [begun?_eq_none (by simpa using hstays)]
          exact bares_stepInside o line raw pending (classify raw)

/-- One line: the open entry is yielded or stays open, and so is the entry of the line's heading. -/
theorem headings_step (path : SourcePath) (c : Cursor) (line : Nat) (raw : List Char) :
    (step path c line raw).2.headings ++ (step path c line raw).1.openHeading =
      c.openHeading ++ (heading? line (classify raw)).toList := by
  have hbares := congrArg (List.map Entry.heading) (bares_step path c line raw)
  rw [List.map_append, List.map_append, Yield.map_bares, Cursor.map_openBare,
    Cursor.map_openBare, ← Option.toList_map, map_begun?] at hbares
  exact hbares

/-- The entries yielded from here on are the open one and those of the header lines to come. -/
theorem headings_readLines (path : SourcePath) (c : Cursor) (last : Nat) (ls : List (List Char)) :
    (readLines path c last ls).headings = c.openHeading ++ headingsOn last ls := by
  induction ls generalizing c last with
  | nil =>
      obtain ⟨state, pending⟩ := c
      cases state with
      | outside skipping => rfl
      | inEntry o =>
          have hbares := congrArg (List.map Entry.heading) (bares_finish o last)
          rw [Yield.map_bares] at hbares
          show (finish o last).headings = [o.entry.heading]
          exact hbares
  | cons raw rest ih =>
      rcases hs : step path c (last + 1) raw with ⟨c', y⟩
      have hstep := headings_step path c (last + 1) raw
      rw [hs] at hstep
      rw [readLines_cons hs, Yield.headings_append, ih, headingsOn_cons, ← List.append_assoc, hstep,
        List.append_assoc]

theorem headings_read (path : SourcePath) (text : String) :
    (read path text).headings = headings text :=
  headings_readLines path .start 0 _

end Bib

end BibAudit
