/-
# BibAudit.Entry — one bibliography entry.

An entry spans the lines from its header to its closing line.  Its fields keep the value as it was
written, delimiters included; the first value of a name wins.  Suppressions name the checks that are
to leave the entry alone, with an optional reason; the last reason of a name wins.  Names of types,
fields and checks are kept in small letters.
-/
import BibAudit.Location
import BibAudit.Text.Case
import BibAudit.Value.Scan

namespace BibAudit

/-- A field value as written, and the line on which the field starts. -/
structure Field where
  value : String
  line : Nat
deriving DecidableEq, Repr

/-- One bibliography entry. -/
structure Entry where
  kind : String
  key : String
  path : SourcePath
  line : Nat
  endLine : Nat
  fields : List (String × Field)
  suppressions : List (String × Option String)
deriving DecidableEq, Repr

namespace Entry

/-! ## Building -/

/-- An entry with nothing but its header. -/
def new (kind key : String) (path : SourcePath) (line : Nat) : Entry :=
  ⟨Text.lowerAscii kind, key, path, line, line, [], []⟩

/-- The entry has a field of exactly this name. -/
def hasField (e : Entry) (name : String) : Bool :=
  (e.fields.lookup name).isSome

/-- The entry with one more field, unless it has a field of that name. -/
def insertField (e : Entry) (name value : String) (line : Nat) : Entry :=
  let name := Text.lowerAscii name
  if e.hasField name then e
  else { e with fields := e.fields ++ [(name, ⟨value, line⟩)] }

/-- The suppressions with a new reason for one name. -/
def putReason (name : String) (reason : Option String) :
    List (String × Option String) → List (String × Option String)
  | [] => [(name, reason)]
  | (other, old) :: rest =>
    if other == name then (name, reason) :: rest else (other, old) :: putReason name reason rest

/-- The entry, left alone by one more check. -/
def suppress (e : Entry) (check : String) (reason : Option String) : Entry :=
  { e with suppressions := putReason (Text.lowerAscii check) reason e.suppressions }

/-- The entry, ending at a line, which is never before its header. -/
def endAt (e : Entry) (line : Nat) : Entry :=
  { e with endLine := max line e.line }

/-! ## Reading -/

/-- The raw value of a field. -/
def field? (e : Entry) (name : String) : Option String :=
  (e.fields.lookup name).map Field.value

/-- The value of a field, read. -/
def scanned? (e : Entry) (name : String) : Option Value.Scanned :=
  (e.field? name).map fun v => Value.scanField v.toList

/-- The value of a field without delimiters and structural braces. -/
def text? (e : Entry) (name : String) : Option String :=
  (e.scanned? name).map Value.Scanned.plainText

/-- Where the header is. -/
def location (e : Entry) : Location :=
  ⟨e.path, e.line⟩

/-- Where a field starts, or the header if there is no such field. -/
def locationOf (e : Entry) (name : String) : Location :=
  ⟨e.path, ((e.fields.lookup name).map Field.line).getD e.line⟩

/-- The entry asks to be left alone by the check of exactly this name. -/
def isSuppressed (e : Entry) (check : String) : Bool :=
  (e.suppressions.lookup check).isSome

/-- The location is one of the entry's lines. -/
def spans (e : Entry) (l : Location) : Bool :=
  e.path == l.path && e.line ≤ l.line && l.line ≤ e.endLine

end Entry

end BibAudit
