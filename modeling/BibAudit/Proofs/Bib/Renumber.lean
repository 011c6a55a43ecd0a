/-
# BibAudit.Proofs.Bib.Renumber — reading the same lines under other numbers.

Nothing that the reader does depends on the numbers of the lines; it only notes them, and the greater
of two, and the one before.  So it commutes with a monotone change of numbers that keeps lines which
follow each other one apart: from a cursor with the new numbers it goes to the new numbers, and yields
what it would, with the new numbers in the places of entries, fields and complaints, and in the text of
the one complaint that names the line at which an entry is cut off.
-/
import BibAudit.Proofs.Bib.Run
import BibAudit.Proofs.Text.Digits
import Mathlib.Order.MinMax

namespace BibAudit

variable {f : Nat → Nat}

/-! ## Entries under other numbers -/

/-- The location, its line having another number. -/
def Location.renumber (f : Nat → Nat) (l : Location) : Location :=
  { l with line := f l.line }

/-- The field, its line having another number. -/
def Field.renumber (f : Nat → Nat) (field : Field) : Field :=
  { field with line := f field.line }

namespace Entry

/-- The entry, its lines having other numbers. -/
def renumber (f : Nat → Nat) (e : Entry) : Entry :=
  { e with
    line := f e.line
    endLine := f e.endLine
    fields := e.fields.map fun p => (p.1, p.2.renumber f) }

theorem hasField_renumber (f : Nat → Nat) (e : Entry) (name : String) :
    (e.renumber f).hasField name = e.hasField name := by
  show ((e.fields.map fun p => (p.1, p.2.renumber f)).lookup name).isSome =
    (e.fields.lookup name).isSome
  induction e.fields with
  | nil => rfl
  | cons p rest ih =>
      rw [List.map_cons, List.lookup_cons, List.lookup_cons]
      cases name == p.1 with
      | true => rfl
      | false => exact ih

theorem insertField_renumber (f : Nat → Nat) (e : Entry) (name value : String) (line : Nat) :
    (e.renumber f).insertField name value (f line) =
      (e.insertField name value line).renumber f := by
  simp only [insertField, hasField_renumber]
  split
  · rfl
  · simp [renumber, Field.renumber]

theorem endAt_renumber (hf : Monotone f) (e : Entry) (line : Nat) :
    (e.renumber f).endAt (f line) = (e.endAt line).renumber f := by
  simp [endAt, renumber, hf.map_max]

end Entry

namespace Bib

open Text (isNumeral decimalValue isNumeral_toString decimalValue_toString)

/-! ## The line that a message names -/

/-- What a complaint about an entry that is cut off says before it names a line. -/
def cutOffLead (key : String) : String :=
  s!"Entry \"{key}\" is not terminated before line "

/-- The line that a message about an entry names, if it says that the entry is cut off there. -/
def namedLine? (key message : String) : Option Nat :=
  let lead := (cutOffLead key).toList
  let rest := message.toList.drop lead.length
  if lead.isPrefixOf message.toList && isNumeral rest then some (decimalValue rest) else none

theorem namedLine?_cutOffMessage (key : String) (line : Nat) :
    namedLine? key (cutOffMessage key line) = some line := by
  have hmessage : (cutOffMessage key line).toList =
      (cutOffLead key).toList ++ (toString line).toList := String.toList_append
  have hlead : (cutOffLead key).toList.isPrefixOf (cutOffMessage key line).toList = true := by
    rw [hmessage, List.isPrefixOf_iff_prefix]
    exact List.prefix_append _ _
  rw [namedLine?, hlead, hmessage, List.drop_left, isNumeral_toString, decimalValue_toString]
  rfl

theorem namedLine?_eq_none {key message : String}
    (h : ¬ (cutOffLead key).toList <+: message.toList) : namedLine? key message = none := by
  rw [← List.isPrefixOf_iff_prefix, Bool.not_eq_true] at h
  rw [namedLine?, h, Bool.false_and]
  rfl

theorem namedLine?_endOfFileMessage (key : String) :
    namedLine? key (endOfFileMessage key) = none := by
  refine namedLine?_eq_none ?_
  simp only [cutOffLead, endOfFileMessage, String.toList_append]
  rw [List.prefix_append_right_inj]
  decide

theorem head?_toList_append {s : String} {c : Char} (h : s.toList.head? = some c) (t : String) :
    (s ++ t).toList.head? = some c := by
  rw [String.toList_append, List.head?_append, h, Option.some_or]

/-- A message about braces begins with another word than those about ends of entries. -/
theorem head_mismatchMessage (name : String) (e : Value.BraceError) :
    (mismatchMessage name e).toList.head? = some 'M' :=
  head?_toList_append (head?_toList_append (head?_toList_append (by decide) name) _) e.message

theorem namedLine?_mismatchMessage (key name : String) (e : Value.BraceError) :
    namedLine? key (mismatchMessage name e) = none := by
  refine namedLine?_eq_none ?_
  rintro ⟨rest, hrest⟩
  have hlead : (cutOffLead key).toList.head? = some 'E' :=
    head?_toList_append (head?_toList_append (by decide) key) _
  have hmessage := head_mismatchMessage name e
  rw [← hrest, List.head?_append, hlead] at hmessage
  cases hmessage

/-- The message about an entry, the line that it names having another number. -/
def renumberMessage (f : Nat → Nat) (key message : String) : String :=
  match namedLine? key message with
  | some line => cutOffMessage key (f line)
  | none => message

theorem renumberMessage_cutOffMessage (f : Nat → Nat) (key : String) (line : Nat) :
    renumberMessage f key (cutOffMessage key line) = cutOffMessage key (f line) := by
  rw [renumberMessage, namedLine?_cutOffMessage]

theorem renumberMessage_endOfFileMessage (f : Nat → Nat) (key : String) :
    renumberMessage f key (endOfFileMessage key) = endOfFileMessage key := by
  rw [renumberMessage, namedLine?_endOfFileMessage]

theorem renumberMessage_mismatchMessage (f : Nat → Nat) (key name : String)
    (e : Value.BraceError) :
    renumberMessage f key (mismatchMessage name e) = mismatchMessage name e := by
  rw [renumberMessage, namedLine?_mismatchMessage]

end Bib

/-- The complaint, its lines and the line that its message names having other numbers. -/
def Complaint.renumber (f : Nat → Nat) (c : Complaint) : Complaint :=
  { c with
    location := c.location.renumber f
    message := match c.key with
      | some key => Bib.renumberMessage f key c.message
      | none => c.message
    related := c.related.map (Location.renumber f) }

namespace Bib

/-! ## What is held between lines -/

/-- The open field, its line having another number. -/
def OpenField.renumber (f : Nat → Nat) (field : OpenField) : OpenField :=
  { field with line := f field.line }

/-- The open entry, its lines having other numbers. -/
def OpenEntry.renumber (f : Nat → Nat) (o : OpenEntry) : OpenEntry :=
  ⟨o.entry.renumber f, o.field.map (OpenField.renumber f)⟩

/-- The state under other numbers. -/
def State.renumber (f : Nat → Nat) : State → State
  | .outside skipping => .outside skipping
  | .inEntry o => .inEntry (o.renumber f)

/-- The cursor under other numbers. -/
def Cursor.renumber (f : Nat → Nat) (c : Cursor) : Cursor :=
  ⟨c.state.renumber f, c.pending⟩

/-- The yield under other numbers. -/
def Yield.renumber (f : Nat → Nat) (y : Yield) : Yield :=
  ⟨y.entries.map (Entry.renumber f), y.complaints.map (Complaint.renumber f)⟩

/-- What reading a line leaves and yields, under other numbers. -/
def renumberResult (f : Nat → Nat) (result : Cursor × Yield) : Cursor × Yield :=
  (result.1.renumber f, result.2.renumber f)

@[simp] theorem Yield.renumber_append (f : Nat → Nat) (y z : Yield) :
    (y ++ z).renumber f = y.renumber f ++ z.renumber f := by
  simp [Yield.ext_iff, Yield.renumber]

@[simp] theorem Yield.renumber_complaining (f : Nat → Nat) (cs : List Complaint) :
    (complaining cs).renumber f = complaining (cs.map (Complaint.renumber f)) := rfl

theorem complainOf_renumber (f : Nat → Nat) (e : Entry) (line : Nat) (message : String) :
    complainOf (e.renumber f) (f line) (renumberMessage f e.key message) =
      (complainOf e line message).renumber f := rfl

/-! ## Fields -/

theorem finishField_renumber (f : Nat → Nat) (o : OpenEntry) :
    finishField (o.renumber f) =
      ((finishField o).1.renumber f, (finishField o).2.map (Complaint.renumber f)) := by
  obtain ⟨e, field⟩ := o
  cases field with
  | none => rfl
  | some field =>
      have hinsert := Entry.insertField_renumber f e (String.ofList field.name)
        (String.ofList (finishedValue field.value)) field.line
      have hcomplaint : ∀ error, complainOf (e.renumber f) (f field.line)
            (mismatchMessage (String.ofList field.name) error) =
          (complainOf e field.line
            (mismatchMessage (String.ofList field.name) error)).renumber f := by
        intro error
        rw [← complainOf_renumber, renumberMessage_mismatchMessage]
      simp only [finishField, OpenEntry.renumber, OpenField.renumber, Option.map_some, hinsert,
        hcomplaint, List.map_map]
      rfl

theorem openField_renumber (f : Nat → Nat) (o : OpenEntry) (line : Nat)
    (name value : List Char) :
    openField (o.renumber f) (f line) name value =
      ((openField o line name value).1.renumber f,
        (openField o line name value).2.map (Complaint.renumber f)) := by
  simp only [openField, finishField_renumber]
  rfl

theorem headerEntry_renumber (f : Nat → Nat) (path : SourcePath) (line : Nat)
    (kind key : List Char) (pending : List Directive) :
    headerEntry path (f line) kind key pending =
      (headerEntry path line kind key pending).renumber f := by
  have hfold : ∀ (ds : List Directive) (e : Entry),
      ds.foldl (fun e d => e.suppress d.1 d.2) (e.renumber f) =
        (ds.foldl (fun e d => e.suppress d.1 d.2) e).renumber f := by
    intro ds
    induction ds with
    | nil => intro e; rfl
    | cons d rest ih => intro e; exact ih (e.suppress d.1 d.2)
  exact hfold pending (Entry.new (String.ofList kind) (String.ofList key) path line)

theorem OpenEntry.extend_renumber (f : Nat → Nat) (o : OpenEntry) (raw : List Char) :
    (o.renumber f).extend raw = (o.extend raw).renumber f := by
  obtain ⟨e, field⟩ := o
  cases field <;> rfl

/-! ## Lines -/

section Lines

variable (hf : Monotone f)
include hf

theorem finish_renumber (o : OpenEntry) (endLine : Nat) :
    finish (o.renumber f) (f endLine) = (finish o endLine).renumber f := by
  simp only [finish, finishField_renumber, Entry.endAt_renumber hf]
  rfl

theorem headerRest_renumber (e : Entry) (line : Nat) (rest : List Char) :
    headerRest (e.renumber f) (f line) rest =
      ((headerRest e line rest).1.renumber f, (headerRest e line rest).2.renumber f) := by
  have hopen : ∀ name value, openField ⟨e.renumber f, none⟩ (f line) name value =
      ((openField ⟨e, none⟩ line name value).1.renumber f,
        (openField ⟨e, none⟩ line name value).2.map (Complaint.renumber f)) :=
    openField_renumber f ⟨e, none⟩ line
  simp only [headerRest]
  split
  · rfl
  · exact Prod.ext rfl (finish_renumber hf ⟨e, none⟩ line)
  · split
    · rfl
    · split
      · simp only [hopen, finish_renumber hf, Yield.renumber_append]
        rfl
      · simp only [hopen]
        rfl

theorem stepOutside_renumber (path : SourcePath) (line : Nat) (raw : List Char)
    (pending : List Directive) (kind : LineKind) :
    stepOutside path (f line) raw pending kind =
      renumberResult f (stepOutside path line raw pending kind) := by
  cases kind with
  | header kind key rest =>
      simp only [stepOutside, headerEntry_renumber, headerRest_renumber hf]
      rfl
  | _ => rfl

theorem stepInside_renumber (o : OpenEntry) (line : Nat) (raw : List Char)
    (pending : List Directive) (kind : LineKind) :
    stepInside (o.renumber f) (f line) raw pending kind =
      renumberResult f (stepInside o line raw pending kind) := by
  cases kind with
  | close =>
      simp only [stepInside, finish_renumber hf]
      rfl
  | fieldStart name value =>
      simp only [stepInside, openField_renumber]
      rfl
  | comment =>
      have hinside : (o.renumber f).field.any OpenField.insideBraces =
          o.field.any OpenField.insideBraces := by
        rw [OpenEntry.renumber, Option.any_map]
        rfl
      simp only [stepInside, hinside, OpenEntry.extend_renumber]
      split <;> rfl
  | text | header | special | malformedHeader =>
      simp only [stepInside, OpenEntry.extend_renumber]
      rfl
  | blank | suppression => rfl

/-- One line under another number, if the line before it keeps its distance of one. -/
theorem step_renumber (path : SourcePath) (c : Cursor) (last : Nat) (raw : List Char)
    (hnext : f (last + 1) = f last + 1) :
    step path (c.renumber f) (f last + 1) raw =
      renumberResult f (step path c (last + 1) raw) := by
  rw [← hnext]
  obtain ⟨state, pending⟩ := c
  cases state with
  | outside skipping =>
      simp only [step, Cursor.renumber, State.renumber, stepOutside_renumber hf]
      split <;> rfl
  | inEntry o =>
      simp only [step, Cursor.renumber, State.renumber]
      split
      · have hcut : complainOf (o.renumber f).entry (o.renumber f).entry.line
              (cutOffMessage (o.renumber f).entry.key (f (last + 1))) =
            (complainOf o.entry o.entry.line
              (cutOffMessage o.entry.key (last + 1))).renumber f := by
          rw [← complainOf_renumber, renumberMessage_cutOffMessage]
          rfl
        -- The entry ends on the line before the one that cuts it off.
        have hfinish : finish (o.renumber f) (f (last + 1) - 1) =
            (finish o (last + 1 - 1)).renumber f := by
          rw [hnext, Nat.add_sub_cancel, Nat.add_sub_cancel, finish_renumber hf]
        rw [hcut, hfinish]
        simp only [stepOutside_renumber hf, renumberResult, Yield.renumber_append,
          Yield.renumber_complaining]
        rfl
      · exact stepInside_renumber hf o (last + 1) raw pending (classify raw)

/-! ## Whole stretches -/

theorem atEnd_renumber (c : Cursor) (last : Nat) :
    atEnd (c.renumber f) (f last) = (atEnd c last).renumber f := by
  obtain ⟨state, pending⟩ := c
  cases state with
  | outside skipping => rfl
  | inEntry o =>
      have hcomplaint : complainOf (o.renumber f).entry (o.renumber f).entry.line
            (endOfFileMessage (o.renumber f).entry.key) =
          (complainOf o.entry o.entry.line (endOfFileMessage o.entry.key)).renumber f := by
        rw [← complainOf_renumber, renumberMessage_endOfFileMessage]
        rfl
      simp only [atEnd, Cursor.renumber, State.renumber, hcomplaint, finish_renumber hf,
        Yield.renumber_append]
      rfl

end Lines

/-- The numbers of `count` lines that follow the first `last` ones stay one apart. -/
def InStep (f : Nat → Nat) (last count : Nat) : Prop :=
  ∀ line, last ≤ line → line < last + count → f (line + 1) = f line + 1

theorem InStep.tail {last count : Nat} (h : InStep f last (count + 1)) :
    InStep f (last + 1) count := by
  intro line hlast hline
  exact h line (by omega) (by omega)

/-- A stretch of lines under other numbers leaves the reader where it was, and yields the same, but for
the numbers. -/
theorem stepAll_renumber (hf : Monotone f) (path : SourcePath) (c : Cursor) (last : Nat)
    (ls : List (List Char)) (hstep : InStep f last ls.length) :
    stepAll path (c.renumber f) (f last) ls = renumberResult f (stepAll path c last ls) := by
  -- The lines are the same in both runs, so the induction is on them, for every cursor.
  induction ls generalizing c last with
  | nil => rfl
  | cons raw rest ih =>
      rcases hs : step path c (last + 1) raw with ⟨c', y⟩
      rcases hr : stepAll path c' (last + 1) rest with ⟨c'', z⟩
      have hnext : f (last + 1) = f last + 1 := hstep last (Nat.le_refl _) (by simp)
      have hfirst : step path (c.renumber f) (f last + 1) raw = (c'.renumber f, y.renumber f) := by
        rw [step_renumber hf path c last raw hnext, hs]
        rfl
      have hrest : stepAll path (c'.renumber f) (f last + 1) rest =
          (c''.renumber f, z.renumber f) := by
        rw [← hnext, ih c' (last + 1) hstep.tail, hr]
        rfl
      rw [stepAll_cons hs hr, stepAll_cons hfirst hrest, ← Yield.renumber_append]
      rfl

/-- The lines up to the end of the file, under other numbers, yield the same, but for the numbers. -/
theorem readLines_renumber (hf : Monotone f) (path : SourcePath) (c : Cursor) (last : Nat)
    (ls : List (List Char)) (hstep : InStep f last ls.length) :
    readLines path (c.renumber f) (f last) ls = (readLines path c last ls).renumber f := by
  induction ls generalizing c last with
  | nil => exact atEnd_renumber hf c last
  | cons raw rest ih =>
      rcases hs : step path c (last + 1) raw with ⟨c', y⟩
      have hnext : f (last + 1) = f last + 1 := hstep last (Nat.le_refl _) (by simp)
      have hfirst : step path (c.renumber f) (f last + 1) raw = (c'.renumber f, y.renumber f) := by
        rw [step_renumber hf path c last raw hnext, hs]
        rfl
      rw [readLines_cons hs, readLines_cons hfirst, ← hnext, ih c' (last + 1) hstep.tail,
        Yield.renumber_append]

/-- The beginning of a file may be exchanged for one that leaves the reader alike and yields the same,
but for the numbers: then the whole file yields the same, but for the numbers. -/
theorem readLines_exchange (hf : Monotone f) {path : SourcePath} {ls ms rest : List (List Char)}
    (hbegin : stepAll path .start 0 ls = renumberResult f (stepAll path .start 0 ms))
    (hlast : f ms.length = ls.length) (hstep : InStep f ms.length rest.length) :
    readLines path .start 0 (ls ++ rest) = (readLines path .start 0 (ms ++ rest)).renumber f := by
  rcases hms : stepAll path .start 0 ms with ⟨c, y⟩
  have hls : stepAll path .start 0 ls = (c.renumber f, y.renumber f) := by
    rw [hbegin, hms]
    rfl
  rw [readLines_append hls, readLines_append hms, Yield.renumber_append, Nat.zero_add, Nat.zero_add,
    ← hlast, readLines_renumber hf path c ms.length rest hstep]

end Bib

end BibAudit
