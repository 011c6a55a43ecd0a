/-
# BibAudit.Proofs.Bib.Resume — a boundary makes the reader start afresh.

A text that begins with an at sign is read alike wherever it stands in a file.  Whatever an earlier
text left open, an entry, a value, a special block or unmatched braces, ends there; only directives
that wait are handed on.  The earlier text is read as if it were the whole file, except that an entry
it leaves open is complained about in other words.
-/
import BibAudit.Proofs.Bib.Queue
import BibAudit.Proofs.Bib.Shift
import BibAudit.Proofs.Text.Lines

namespace BibAudit.Bib

variable {k : Complaint} {raw : List Char}

/-! ## Complaints that reading a line makes -/

/-- The complaints that lines give rise to.  None of them speaks of the end of the file. -/
inductive RaisedByLine : Complaint → Prop
  | malformed (path : SourcePath) (line : Nat) :
      RaisedByLine (complain path line malformedMessage)
  | strayClose (path : SourcePath) (line : Nat) :
      RaisedByLine (complain path line strayCloseMessage)
  | cutOff (e : Entry) (line : Nat) :
      RaisedByLine (complainOf e e.line (cutOffMessage e.key line))
  | mismatch (e : Entry) (line : Nat) (name : String) (error : Value.BraceError) :
      RaisedByLine (complainOf e line (mismatchMessage name error))

theorem raised_finishField (o : OpenEntry) : ∀ k ∈ (finishField o).2, RaisedByLine k := by
  obtain ⟨e, field⟩ := o
  cases field with
  | none => simp [finishField]
  | some f =>
      intro k hk
      simp only [finishField, List.mem_map] at hk
      obtain ⟨error, -, rfl⟩ := hk
      exact .mismatch e f.line (String.ofList f.name) error

theorem raised_openField (o : OpenEntry) (line : Nat)
    (name value : List Char) : ∀ k ∈ (openField o line name value).2, RaisedByLine k :=
  raised_finishField o

theorem raised_finish (o : OpenEntry) (endLine : Nat) :
    ∀ k ∈ (finish o endLine).complaints, RaisedByLine k :=
  raised_finishField o

theorem raised_headerRest (e : Entry) (line : Nat) (rest : List Char) :
    ∀ k ∈ (headerRest e line rest).2.complaints, RaisedByLine k := by
  rw [headerRest]
  split
  · simp
  · exact raised_finish ⟨e, none⟩ line
  · split
    · simp
    · next name value _ =>
        split
        · intro k hk
          rcases List.mem_append.mp hk with hk | hk
          · exact raised_openField ⟨e, none⟩ line name value.dropLast k hk
          · exact raised_finish _ line k hk
        · exact raised_openField ⟨e, none⟩ line name value

theorem raised_stepOutside (path : SourcePath) (line : Nat) (raw : List Char)
    (pending : List Directive) (kind : LineKind) :
    ∀ k ∈ (stepOutside path line raw pending kind).2.complaints, RaisedByLine k := by
  cases kind with
  | header kind key rest =>
      exact raised_headerRest (headerEntry path line kind key pending) line rest
  | malformedHeader =>
      intro k hk
      obtain rfl := List.mem_singleton.mp hk
      exact .malformed path line
  | close =>
      intro k hk
      obtain rfl := List.mem_singleton.mp hk
      exact .strayClose path line
  | _ => simp [stepOutside]

theorem raised_stepInside (o : OpenEntry) (line : Nat) (raw : List Char)
    (pending : List Directive) (kind : LineKind) :
    ∀ k ∈ (stepInside o line raw pending kind).2.complaints, RaisedByLine k := by
  cases kind with
  | close => exact raised_finish o line
  | fieldStart name value => exact raised_openField o line name value
  | _ => simp [stepInside]

theorem raised_step (path : SourcePath) (c : Cursor) (line : Nat) (raw : List Char) :
    ∀ k ∈ (step path c line raw).2.complaints, RaisedByLine k := by
  obtain ⟨state, pending⟩ := c
  cases state with
  | outside skipping =>
      simp only [step]
      split
      · simp
      · exact raised_stepOutside path line raw pending (classify raw)
  | inEntry o =>
      simp only [step]
      split
      · intro k hk
        rcases List.mem_append.mp hk with hk | hk
        · rcases List.mem_append.mp hk with hk | hk
          · obtain rfl := List.mem_singleton.mp hk
            exact .cutOff o.entry line
          · exact raised_finish o (line - 1) k hk
        · exact raised_stepOutside path line raw pending (classify raw) k hk
      · exact raised_stepInside o line raw pending (classify raw)

theorem raised_stepAll (path : SourcePath) (c : Cursor) (last : Nat) (ls : List (List Char)) :
    ∀ k ∈ (stepAll path c last ls).2.complaints, RaisedByLine k := by
  induction ls generalizing c last with
  | nil => simp
  | cons raw rest ih =>
      rw [stepAll]
      intro k hk
      rcases List.mem_append.mp hk with hk | hk
      · exact raised_step path c (last + 1) raw k hk
      · exact ih _ (last + 1) k hk

/-! ## The end of the file and the next block -/

/-- The complaint, with words for an entry cut off before a line instead of at the end of the
file. -/
def cutOffAt (line : Nat) (k : Complaint) : Complaint :=
  { k with
    message := match k.key with
      | some key => if k.message = endOfFileMessage key then cutOffMessage key line else k.message
      | none => k.message }

/-- The yield, with words for an entry cut off before a line. -/
def Yield.cutOffAt (line : Nat) (y : Yield) : Yield :=
  { y with complaints := y.complaints.map (Bib.cutOffAt line) }

theorem Yield.cutOffAt_append (line : Nat) (y z : Yield) :
    (y ++ z).cutOffAt line = y.cutOffAt line ++ z.cutOffAt line := by
  simp [Yield.ext_iff, Yield.cutOffAt]

theorem head_endOfFileMessage (key : String) :
    (endOfFileMessage key).toList.head? = some 'E' :=
  head?_toList_append (head?_toList_append (by decide) key) _

theorem cutOffAt_endOfFile (e : Entry) (line : Nat) :
    cutOffAt line (complainOf e e.line (endOfFileMessage e.key)) =
      complainOf e e.line (cutOffMessage e.key line) := by
  simp [cutOffAt, complainOf, complain, Complaint.raise, Complaint.about]

/-- What a line complained of stands as it is. -/
theorem cutOffAt_of_raised (h : RaisedByLine k) (line : Nat) : cutOffAt line k = k := by
  cases h with
  | malformed | strayClose => rfl
  | cutOff e l =>
      -- One message names a line and the other does not.
      have hne : cutOffMessage e.key l ≠ endOfFileMessage e.key := by
        intro he
        have hline := namedLine?_cutOffMessage e.key l
        rw [he, namedLine?_endOfFileMessage] at hline
        cases hline
      simp [cutOffAt, complainOf, complain, Complaint.raise, Complaint.about, hne]
  | mismatch e l name error =>
      have hne : mismatchMessage name error ≠ endOfFileMessage e.key := by
        intro he
        have hhead := head_mismatchMessage name error
        rw [he, head_endOfFileMessage] at hhead
        cases hhead
      simp [cutOffAt, complainOf, complain, Complaint.raise, Complaint.about, hne]

theorem Yield.cutOffAt_of_raised {y : Yield} (h : ∀ k ∈ y.complaints, RaisedByLine k)
    (line : Nat) : y.cutOffAt line = y := by
  refine Yield.ext_iff.mpr ⟨rfl, ?_⟩
  exact (List.map_congr_left fun k hk => Bib.cutOffAt_of_raised (h k hk) line).trans
    (List.map_id _)

/-- A boundary ends what is open as the end of the file would, and is read from between entries. -/
theorem step_boundary (path : SourcePath) (c : Cursor) (last : Nat)
    (h : (classify raw).isBoundary = true) :
    step path c (last + 1) raw =
      ((step path ⟨.outside 0, c.pending⟩ (last + 1) raw).1,
        (atEnd c last).cutOffAt (last + 1) ++
          (step path ⟨.outside 0, c.pending⟩ (last + 1) raw).2) := by
  obtain ⟨state, pending⟩ := c
  -- A boundary is never skipped, so an open special block makes no difference.
  have hafresh : ∀ skipping, step path ⟨.outside skipping, pending⟩ (last + 1) raw =
      stepOutside path (last + 1) raw pending (classify raw) := by
    intro skipping
    simp [step, h]
  cases state with
  | outside skipping => rw [hafresh, hafresh]; rfl
  | inEntry o =>
      have hfinish : (finish o last).cutOffAt (last + 1) = finish o last :=
        Yield.cutOffAt_of_raised (raised_finish o last) (last + 1)
      have hend : (atEnd ⟨.inEntry o, pending⟩ last).cutOffAt (last + 1) =
          .complaining [complainOf o.entry o.entry.line (cutOffMessage o.entry.key (last + 1))] ++
            finish o last := by
        rw [← cutOffAt_endOfFile, ← hfinish]
        exact Yield.cutOffAt_append _ _ _
      rw [hafresh, hend]
      simp [step, h]

/-! ## One text after another -/

/-- The first line of the text, blanks around it left out, begins with an at sign. -/
def OpensBlock (text : String) : Prop :=
  ((Text.lines text.toList).head?.bind fun first => (Text.trim first).head?) = some '@'

instance (text : String) : Decidable (OpensBlock text) :=
  inferInstanceAs (Decidable (_ = _))

theorem isBoundary_of_head (h : (Text.trim raw).head? = some '@') :
    (classify raw).isBoundary = true := by
  obtain ⟨rest, hrest⟩ := List.head?_eq_some_iff.mp h
  simp only [classify, hrest]
  split
  · rfl
  · split <;> rfl

/-- Where the reader stands after the lines of a text. -/
def cursorAfter (path : SourcePath) (text : String) : Cursor :=
  (stepAll path .start 0 (Text.lines text.toList)).1

/-- The directives that no header of the text took. -/
def leftWaiting (path : SourcePath) (text : String) : List Directive :=
  (cursorAfter path text).pending

/-- How many lines a text has. -/
def lineCount (text : String) : Nat :=
  (Text.lines text.toList).length

theorem read_eq_atEnd (path : SourcePath) (text : String) :
    read path text = (stepAll path .start 0 (Text.lines text.toList)).2 ++
      atEnd (cursorAfter path text) (lineCount text) := by
  have hread : readLines path .start 0 (Text.lines text.toList ++ []) =
      (stepAll path .start 0 (Text.lines text.toList)).2 ++
        readLines path (cursorAfter path text) (0 + lineCount text) [] :=
    readLines_append rfl
  rw [List.append_nil, Nat.zero_add] at hread
  exact hread

/-- From a boundary on, the lines are read as if they were the beginning of a file, `n` lines further
down, with the directives of the cursor waiting. -/
theorem readLines_boundary (path : SourcePath) (c : Cursor) (n : Nat)
    (h : (classify raw).isBoundary = true) (rest : List (List Char)) :
    readLines path c n (raw :: rest) = (atEnd c n).cutOffAt (n + 1) ++
      ((readLines path .start 0 (raw :: rest)).shift n).afterFirst c.pending := by
  have hwaiting : Awaits c.pending ⟨.outside 0, c.pending⟩ .start := by
    have h := Awaits.waiting (q := c.pending) 0 []
    rwa [List.append_nil] at h
  have hafresh : readLines path ⟨.outside 0, c.pending⟩ n (raw :: rest) =
      ((readLines path .start 0 (raw :: rest)).shift n).afterFirst c.pending := by
    rw [readLines_after hwaiting, ← readLines_shift, Nat.zero_add]
    rfl
  have hstep := step_boundary path c n h
  rcases hs : step path ⟨.outside 0, c.pending⟩ (n + 1) raw with ⟨d, y⟩
  rw [hs] at hstep
  rw [← hafresh, readLines_cons hstep, readLines_cons hs, Yield.append_assoc]

/-- A text that begins a block, after a text that leaves no line open: the entries of the first text
stay, and those of the second are `n` lines further down, the first of them having met the directives
that the first text left waiting.  The complaints are those of both texts in turn; only an entry that
the first text left open is cut off before the second one, no more at the end of the file. -/
theorem read_append {before text : String} (hb : Text.Ended before.toList) (ht : OpensBlock text)
    (path : SourcePath) :
    (read path (before ++ text)).entries = (read path before).entries ++
        ((read path text).entries.map (Entry.shift (lineCount before))).modifyHead
          (after (leftWaiting path before)) ∧
      (read path (before ++ text)).complaints =
        (read path before).complaints.map (cutOffAt (lineCount before + 1)) ++
          (read path text).complaints.map (Complaint.shift (lineCount before)) := by
  have hlines : Text.lines (before ++ text).toList =
      Text.lines before.toList ++ Text.lines text.toList := by
    rw [String.toList_append, Text.lines_append hb]
  obtain ⟨raw, rest, hfirst, hhead⟩ : ∃ raw rest,
      Text.lines text.toList = raw :: rest ∧ (Text.trim raw).head? = some '@' := by
    obtain ⟨raw, hraw, hhead⟩ := Option.bind_eq_some_iff.mp ht
    obtain ⟨rest, hrest⟩ := List.head?_eq_some_iff.mp hraw
    exact ⟨raw, rest, hrest, hhead⟩
  have hstart : (stepAll path .start 0 (Text.lines before.toList)).2.cutOffAt
        (lineCount before + 1) = (stepAll path .start 0 (Text.lines before.toList)).2 :=
    Yield.cutOffAt_of_raised (raised_stepAll path .start 0 _) _
  have hread : read path (before ++ text) =
      (read path before).cutOffAt (lineCount before + 1) ++
        ((read path text).shift (lineCount before)).afterFirst (leftWaiting path before) := by
    have hlater : readLines path (cursorAfter path before) (0 + lineCount before)
          (Text.lines text.toList) =
        (atEnd (cursorAfter path before) (lineCount before)).cutOffAt (lineCount before + 1) ++
          ((read path text).shift (lineCount before)).afterFirst (leftWaiting path before) := by
      rw [Nat.zero_add, hfirst, readLines_boundary path _ _ (isBoundary_of_head hhead), ← hfirst]
      rfl
    rw [read, hlines, readLines_append rfl, read_eq_atEnd path before, Yield.cutOffAt_append,
      hstart, Yield.append_assoc, ← hlater]
    rfl
  rw [hread]
  exact ⟨rfl, rfl⟩

/-- An entry whose value leaves a brace open, with a directive inside. -/
def unfinishedText : String :=
  "@misc\x7ba,\n  note = \x7bleft open,\n% LINT isbn old\n"

/-- A special block, then two entries of which the second cuts off the first. -/
def nextText : String :=
  "@string\x7bx\x7d\n% LINT doi new\n@misc\x7bb,\n@misc\x7bc,\n\x7d\n"

theorem read_append_unfinished :
    Text.Ended unfinishedText.toList ∧ OpensBlock nextText ∧
      (read ⟨"refs.bib"⟩ (unfinishedText ++ nextText)).entries =
        (read ⟨"refs.bib"⟩ unfinishedText).entries ++
          ((read ⟨"refs.bib"⟩ nextText).entries.map
            (Entry.shift (lineCount unfinishedText))).modifyHead
              (after (leftWaiting ⟨"refs.bib"⟩ unfinishedText)) ∧
      (read ⟨"refs.bib"⟩ (unfinishedText ++ nextText)).complaints =
        (read ⟨"refs.bib"⟩ unfinishedText).complaints.map
            (cutOffAt (lineCount unfinishedText + 1)) ++
          (read ⟨"refs.bib"⟩ nextText).complaints.map
            (Complaint.shift (lineCount unfinishedText)) := by
  have hb : Text.Ended unfinishedText.toList := by decide +kernel
  have ht : OpensBlock nextText := by decide +kernel
  exact ⟨hb, ht, read_append hb ht ⟨"refs.bib"⟩⟩

example : (read ⟨"refs.bib"⟩ (unfinishedText ++ nextText)).entries.map
    (fun e => (e.key, e.line, e.endLine, e.suppressions)) =
    [("a", 1, 3, []), ("b", 6, 6, [("isbn", some "old"), ("doi", some "new")]),
      ("c", 7, 8, [])] := by
  decide +kernel

example : (read ⟨"refs.bib"⟩ (unfinishedText ++ nextText)).complaints.map (·.message) =
    ["Entry \"a\" is not terminated before line 4",
      "Mismatched braces in field \"note\": 1 opening brace(s) never closed",
      "Entry \"b\" is not terminated before line 7"] := by
  decide +kernel

end BibAudit.Bib
