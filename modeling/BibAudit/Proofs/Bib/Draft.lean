/-
# BibAudit.Proofs.Bib.Draft — entries that can be written out.

A draft says what an entry is to hold: directives, type, key and fields.  It is written with one
line for each directive, a header line, the lines of its fields, and a closing brace on a line of its
own.  The value of a field may go on over several lines; each break then stands for a single space.

What reading the lines has to give is stated here without the reader: the entries with the lines on
which they and their fields stand, counted from the top of the file.
-/
import BibAudit.Proofs.Bib.Directives
import BibAudit.Proofs.Text.Lines
import BibAudit.Proofs.Text.Trim

namespace BibAudit.Bib

/-! ## Drafts -/

/-- A directive to be written: a check, and the reason if one is given. -/
structure DirectiveDraft where
  check : List Char
  reason : Option (List Char)

/-- A field to be written.  Its value is cut at single spaces into a first piece, which stands on
the line of the name, and more pieces, each on a line of its own. -/
structure FieldDraft where
  name : List Char
  first : List Char
  more : List (List Char)

/-- An entry to be written. -/
structure Draft where
  directives : List DirectiveDraft
  kind : List Char
  key : List Char
  fields : List FieldDraft

/-- The value of a field: its pieces with a space at every break. -/
def FieldDraft.value (f : FieldDraft) : List Char :=
  f.first ++ f.more.flatMap fun piece => ' ' :: piece

/-! ## Writing -/

/-- The comma after a value, which stands after its last piece. -/
def commaBefore (more : List (List Char)) : List Char :=
  if more.isEmpty then [','] else []

/-- What follows the word LINT of a directive: the check, and the reason after a space. -/
def DirectiveDraft.subject (d : DirectiveDraft) : List Char :=
  match d.reason with
  | none => d.check
  | some reason => d.check ++ ' ' :: reason

/-- The line of a directive. -/
def DirectiveDraft.line (d : DirectiveDraft) : List Char :=
  '%' :: ' ' :: 'L' :: 'I' :: 'N' :: 'T' :: ' ' :: d.subject

/-- The lines on which a value goes on. -/
def continuationLines (indent : List Char) : List (List Char) → List (List Char)
  | [] => []
  | piece :: more => (indent ++ (piece ++ commaBefore more)) :: continuationLines indent more

/-- The line on which a field starts. -/
def FieldDraft.startLine (f : FieldDraft) : List Char :=
  ' ' :: ' ' :: (f.name ++ ' ' :: '=' :: ' ' :: (f.first ++ commaBefore f.more))

/-- The lines of a field; those after the first are indented. -/
def FieldDraft.lines (indent : List Char) (f : FieldDraft) : List (List Char) :=
  f.startLine :: continuationLines indent f.more

/-- The line of a header. -/
def Draft.headerLine (d : Draft) : List Char :=
  '@' :: (d.kind ++ '{' :: (d.key ++ [',']))

/-- The lines of an entry. -/
def Draft.lines (indent : List Char) (d : Draft) : List (List Char) :=
  d.directives.map DirectiveDraft.line ++
    (d.headerLine :: (d.fields.flatMap (FieldDraft.lines indent) ++ [['}']]))

/-- The text of a file with some entries. -/
def writeDrafts (indent : List Char) (ds : List Draft) : String :=
  String.ofList (Text.unlines (ds.flatMap (Draft.lines indent)))

/-! ## Well-formed drafts -/

/-- Blanks that do not end a line. -/
def IsIndent (indent : List Char) : Prop :=
  ∀ c ∈ indent, Text.isBlank c = true ∧ c ≠ '\n'

instance (indent : List Char) : Decidable (IsIndent indent) :=
  decidable_of_iff ((indent.all fun c => Text.isBlank c && c != '\n') = true) (by simp [IsIndent])

/-- The check is one word, and the reason says something on one line. -/
structure DirectiveDraft.WellFormed (d : DirectiveDraft) : Prop where
  check_ne : d.check ≠ []
  check_word : ∀ c ∈ d.check, Text.isBlank c = false
  reason_ne : ∀ r ∈ d.reason, r ≠ []
  reason_tight : ∀ r ∈ d.reason, Text.Tight r
  reason_line : ∀ r ∈ d.reason, '\n' ∉ r

instance (d : DirectiveDraft) : Decidable d.WellFormed :=
  decidable_of_iff (d.check ≠ [] ∧ (d.check.all fun c => !Text.isBlank c) = true ∧
      (∀ r ∈ d.reason, r ≠ []) ∧ (∀ r ∈ d.reason, Text.Tight r) ∧ ∀ r ∈ d.reason, '\n' ∉ r)
    ⟨fun ⟨a, b, c, d, e⟩ => ⟨a, by simpa using b, c, d, e⟩,
      fun ⟨a, b, c, d, e⟩ => ⟨a, by simpa using b, c, d, e⟩⟩

/-- The name is a name, the value stands alone with its braces matched, it is broken at single
spaces only, and nothing but text seems to stand on the lines on which it goes on. -/
structure FieldDraft.WellFormed (indent : List Char) (f : FieldDraft) : Prop where
  name_ne : f.name ≠ []
  name_chars : ∀ c ∈ f.name, isNameChar c = true
  value_line : '\n' ∉ f.value
  value_tight : Text.Tight f.value
  value_braces : (Value.scanField f.value).error = none
  breaks : ∀ piece ∈ f.first :: f.more, Text.Tight piece
  texts : ∀ l ∈ continuationLines indent f.more, classify l = .text

instance (indent : List Char) (f : FieldDraft) : Decidable (f.WellFormed indent) :=
  decidable_of_iff (f.name ≠ [] ∧ f.name.all isNameChar = true ∧ '\n' ∉ f.value ∧
      Text.Tight f.value ∧ (Value.scanField f.value).error = none ∧
      (∀ piece ∈ f.first :: f.more, Text.Tight piece) ∧
      ∀ l ∈ continuationLines indent f.more, classify l = .text)
    ⟨fun ⟨a, b, c, d, e, g, h⟩ => ⟨a, List.all_eq_true.mp b, c, d, e, g, h⟩,
      fun ⟨a, b, c, d, e, g, h⟩ => ⟨a, List.all_eq_true.mpr b, c, d, e, g, h⟩⟩

/-- Types that make a block something else than an entry. -/
def blockKinds : List (List Char) :=
  ["comment".toList, "string".toList, "preamble".toList]

/-- The name of a field as the entry keeps it. -/
def FieldDraft.storedName (f : FieldDraft) : String :=
  Text.lowerAscii (String.ofList f.name)

/-- All parts have their form, the type is that of an entry, and no two fields share a name. -/
structure Draft.WellFormed (indent : List Char) (d : Draft) : Prop where
  directives : ∀ r ∈ d.directives, r.WellFormed
  kind_ne : d.kind ≠ []
  kind_letters : ∀ c ∈ d.kind, c.isAlpha = true
  kind_entry : d.kind.map Char.toLower ∉ blockKinds
  key_ne : d.key ≠ []
  key_chars : ∀ c ∈ d.key, isKeyChar c = true
  names : (d.fields.map FieldDraft.storedName).Nodup
  fields : ∀ f ∈ d.fields, f.WellFormed indent

instance (indent : List Char) (d : Draft) : Decidable (d.WellFormed indent) :=
  decidable_of_iff ((∀ r ∈ d.directives, r.WellFormed) ∧ d.kind ≠ [] ∧
      d.kind.all Char.isAlpha = true ∧ d.kind.map Char.toLower ∉ blockKinds ∧ d.key ≠ [] ∧
      d.key.all isKeyChar = true ∧ (d.fields.map FieldDraft.storedName).Nodup ∧
      ∀ f ∈ d.fields, f.WellFormed indent)
    ⟨fun ⟨a, b, c, e, f, g, h, i⟩ =>
        ⟨a, b, List.all_eq_true.mp c, e, f, List.all_eq_true.mp g, h, i⟩,
      fun ⟨a, b, c, e, f, g, h, i⟩ =>
        ⟨a, b, List.all_eq_true.mpr c, e, f, List.all_eq_true.mpr g, h, i⟩⟩

/-! ## What is to be read -/

/-- The number of lines of a field. -/
def FieldDraft.height (f : FieldDraft) : Nat :=
  1 + f.more.length

/-- The number of lines of some fields. -/
def fieldsHeight : List FieldDraft → Nat
  | [] => 0
  | f :: rest => f.height + fieldsHeight rest

/-- The number of lines of an entry. -/
def Draft.height (d : Draft) : Nat :=
  d.directives.length + 1 + fieldsHeight d.fields + 1

/-- The fields that are written right after the first `last` lines. -/
def fieldsAfter : Nat → List FieldDraft → List (String × Field)
  | _, [] => []
  | last, f :: rest =>
    (f.storedName, ⟨String.ofList f.value, last + 1⟩) :: fieldsAfter (last + f.height) rest

/-- What a directive asks, the name of the check in small letters. -/
def DirectiveDraft.asked (d : DirectiveDraft) : Directive :=
  directive d.check d.reason

/-- The entry that is written right after the first `last` lines. -/
def Draft.entryAfter (path : SourcePath) (last : Nat) (d : Draft) : Entry where
  kind := Text.lowerAscii (String.ofList d.kind)
  key := String.ofList d.key
  path := path
  line := last + d.directives.length + 1
  endLine := last + d.height
  fields := fieldsAfter (last + d.directives.length + 1) d.fields
  suppressions := lastReasons (d.directives.map DirectiveDraft.asked)

/-- The entries that are written right after the first `last` lines. -/
def entriesAfter (path : SourcePath) : Nat → List Draft → List Entry
  | _, [] => []
  | last, d :: rest => d.entryAfter path last :: entriesAfter path (last + d.height) rest

end BibAudit.Bib
