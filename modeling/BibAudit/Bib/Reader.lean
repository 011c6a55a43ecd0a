/-
# BibAudit.Bib.Reader — reading a bibliography file.

The reader goes over a file line by line and holds at most one open entry, which holds at most one
open field.  A header, a special block or a malformed header ends whatever is open; nothing read
before such a line matters after it, except suppression directives, which wait for the next header.
Reading never fails: every problem becomes a complaint, and every header becomes an entry.
-/
import BibAudit.Bib.Line
import BibAudit.Complaint
import BibAudit.Entry
import BibAudit.Text.Basic

namespace BibAudit.Bib

/-! ## What is held between lines -/

/-- A field whose value may go on, with the number of braces its value leaves open. -/
structure OpenField where
  name : List Char
  value : List Char
  line : Nat
  depth : Int
deriving DecidableEq, Repr

/-- The value so far leaves a brace open. -/
def OpenField.insideBraces (f : OpenField) : Bool :=
  0 < f.depth

/-- An entry that is not closed yet. -/
structure OpenEntry where
  entry : Entry
  field : Option OpenField
deriving DecidableEq, Repr

/-- Where the reader stands. -/
inductive State
  /-- Between entries, with so many braces of a special block still open. -/
  | outside (skipping : Int)
  | inEntry (current : OpenEntry)
deriving DecidableEq, Repr

/-- A directive that waits for the next header. -/
abbrev Directive := String × Option String

/-- Where the reader stands, and the directives that wait. -/
structure Cursor where
  state : State
  pending : List Directive
deriving DecidableEq, Repr

/-- The cursor before the first line. -/
def Cursor.start : Cursor := ⟨.outside 0, []⟩

/-- Entries and complaints, each in the order in which they arose. -/
structure Yield where
  entries : List Entry
  complaints : List Complaint
deriving DecidableEq, Repr

namespace Yield

/-- Nothing. -/
def empty : Yield := ⟨[], []⟩

/-- One yield after another. -/
def append (a b : Yield) : Yield :=
  ⟨a.entries ++ b.entries, a.complaints ++ b.complaints⟩

instance : Append Yield := ⟨append⟩

/-- Complaints only. -/
def complaining (cs : List Complaint) : Yield := ⟨[], cs⟩

@[simp] theorem append_entries (a b : Yield) : (a ++ b).entries = a.entries ++ b.entries := rfl

@[simp] theorem append_complaints (a b : Yield) :
    (a ++ b).complaints = a.complaints ++ b.complaints := rfl

end Yield

/-! ## Complaints -/

/-- A complaint about a line between entries. -/
def complain (path : SourcePath) (line : Nat) (message : String) : Complaint :=
  .raise Complaint.parseError ⟨path, line⟩ message

/-- A complaint about an entry, at one of its lines. -/
def complainOf (e : Entry) (line : Nat) (message : String) : Complaint :=
  (complain e.path line message).about e.key

/-- The complaint about a header that has not its form. -/
def malformedMessage : String := "Malformed entry header, expected @type\x7bkey,"

/-- The complaint about a closing brace that closes nothing. -/
def strayCloseMessage : String := "Closing brace outside of any entry"

/-- The complaint about an entry that another block cuts off. -/
def cutOffMessage (key : String) (line : Nat) : String :=
  s!"Entry \"{key}\" is not terminated before line {line}"

/-- The complaint about an entry that the end of the file cuts off. -/
def endOfFileMessage (key : String) : String :=
  s!"Entry \"{key}\" is not terminated at end of file"

/-- The complaint about a field whose braces do not match. -/
def mismatchMessage (name : String) (e : Value.BraceError) : String :=
  s!"Mismatched braces in field \"{name}\": {e.message}"

/-! ## Fields -/

/-- The value of a field that goes on no further: one comma at its end belongs to the entry. -/
def finishedValue (value : List Char) : List Char :=
  let value := Text.trim value
  Text.trimEnd (if value.getLast? = some ',' then value.dropLast else value)

/-- Close the open field, if there is one, and file it in the entry. -/
def finishField (o : OpenEntry) : Entry × List Complaint :=
  match o.field with
  | none => (o.entry, [])
  | some f =>
    let value := finishedValue f.value
    let name := String.ofList f.name
    let complaints := (Value.scanField value).error.toList.map fun e =>
      complainOf o.entry f.line (mismatchMessage name e)
    (o.entry.insertField name (String.ofList value) f.line, complaints)

/-- Close the open field and open another one. -/
def openField (o : OpenEntry) (line : Nat) (name value : List Char) :
    OpenEntry × List Complaint :=
  let (entry, complaints) := finishField o
  let value := Text.trim value
  (⟨entry, some ⟨name, value, line, Value.balance value⟩⟩, complaints)

/-- Close the entry at a line. -/
def finish (o : OpenEntry) (endLine : Nat) : Yield :=
  let (entry, complaints) := finishField o
  ⟨[entry.endAt endLine], complaints⟩

/-! ## Lines -/

/-- Read what follows the key and its comma on a header line. -/
def headerRest (entry : Entry) (line : Nat) (rest : List Char) : State × Yield :=
  let o : OpenEntry := ⟨entry, none⟩
  match Text.trim rest with
  | [] => (.inEntry o, .empty)
  | '}' :: _ => (.outside 0, finish o line)
  | rest =>
    match field? rest with
    | none => (.inEntry o, .empty)
    | some (name, value) =>
      if Value.balance value < 0 && value.getLast? == some '}' then
        let (o, complaints) := openField o line name value.dropLast
        (.outside 0, .complaining complaints ++ finish o line)
      else
        let (o, complaints) := openField o line name value
        (.inEntry o, .complaining complaints)

/-- The directive on a suppression line. -/
def directive (check : List Char) (reason : Option (List Char)) : Directive :=
  (Text.lowerAscii (String.ofList check), reason.map String.ofList)

/-- The entry of a header, left alone by the checks that directives before it name. -/
def headerEntry (path : SourcePath) (line : Nat) (kind key : List Char)
    (pending : List Directive) : Entry :=
  pending.foldl (fun e d => e.suppress d.1 d.2)
    (Entry.new (String.ofList kind) (String.ofList key) path line)

/-- Read a line between entries, no special block being open. -/
def stepOutside (path : SourcePath) (line : Nat) (raw : List Char)
    (pending : List Directive) : LineKind → Cursor × Yield
  | .suppression check reason => (⟨.outside 0, pending ++ [directive check reason]⟩, .empty)
  | .special => (⟨.outside (max (Value.balance raw) 0), pending⟩, .empty)
  | .malformedHeader =>
    (⟨.outside 0, pending⟩, .complaining [complain path line malformedMessage])
  | .close => (⟨.outside 0, pending⟩, .complaining [complain path line strayCloseMessage])
  | .header kind key rest =>
    let (state, yield) := headerRest (headerEntry path line kind key pending) line rest
    (⟨state, []⟩, yield)
  | .blank | .comment | .text | .fieldStart .. => (⟨.outside 0, pending⟩, .empty)

/-- The open field with a line of text joined on. -/
def OpenField.extend (f : OpenField) (text : List Char) : OpenField :=
  { f with value := f.value ++ ' ' :: text, depth := f.depth + Value.balance text }

/-- The entry with a line of text joined on to its open field; text before any field is dropped. -/
def OpenEntry.extend (o : OpenEntry) (raw : List Char) : OpenEntry :=
  { o with field := o.field.map (·.extend (Text.trim raw)) }

/-- Read a line inside an entry that does not end it by its kind. -/
def stepInside (o : OpenEntry) (line : Nat) (raw : List Char) (pending : List Directive) :
    LineKind → Cursor × Yield
  | .blank => (⟨.inEntry o, pending⟩, .empty)
  | .close => (⟨.outside 0, pending⟩, finish o line)
  | .fieldStart name value =>
    let (o, complaints) := openField o line name value
    (⟨.inEntry o, pending⟩, .complaining complaints)
  | .suppression check reason => (⟨.inEntry o, pending ++ [directive check reason]⟩, .empty)
  | .comment =>
    let inside := o.field.any OpenField.insideBraces
    (⟨.inEntry (if inside then o.extend raw else o), pending⟩, .empty)
  | .text | .header .. | .special | .malformedHeader => (⟨.inEntry (o.extend raw), pending⟩, .empty)

/-- Read one line. -/
def step (path : SourcePath) (c : Cursor) (line : Nat) (raw : List Char) : Cursor × Yield :=
  let kind := classify raw
  match c.state with
  | .outside skipping =>
    if 0 < skipping && !kind.isBoundary then
      (⟨.outside (skipping + Value.balance raw), c.pending⟩, .empty)
    else stepOutside path line raw c.pending kind
  | .inEntry o =>
    if kind.isBoundary then
      let cut := complainOf o.entry o.entry.line (cutOffMessage o.entry.key line)
      let (c, yield) := stepOutside path line raw c.pending kind
      (c, .complaining [cut] ++ finish o (line - 1) ++ yield)
    else stepInside o line raw c.pending kind

/-- What the end of the file yields after `last` lines. -/
def atEnd (c : Cursor) (last : Nat) : Yield :=
  match c.state with
  | .outside _ => .empty
  | .inEntry o =>
    .complaining [complainOf o.entry o.entry.line (endOfFileMessage o.entry.key)] ++ finish o last

/-- Read the lines that follow the first `last` ones. -/
def readLines (path : SourcePath) : Cursor → Nat → List (List Char) → Yield
  | c, last, [] => atEnd c last
  | c, last, raw :: rest =>
    let (c, yield) := step path c (last + 1) raw
    yield ++ readLines path c (last + 1) rest

/-- Read a bibliography file. -/
def read (path : SourcePath) (text : String) : Yield :=
  readLines path .start 0 (Text.lines text.toList)

end BibAudit.Bib
