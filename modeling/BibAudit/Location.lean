/-
# BibAudit.Location — where in which file.

A source path is a file name in one spelling: separators are forward slashes, no `./` leads, and a
text without a file is called `-`.  A location is a line of such a file, counted from one.  Both are
ordered: paths by code points, then lines by number.
-/
import BibAudit.Text.Basic

namespace BibAudit

/-- A file name as it stands in complaints and reports. -/
structure SourcePath where
  text : String
deriving DecidableEq, Repr, Inhabited

namespace SourcePath

/-- The path without any `./` in front. -/
def dropHere : List Char → List Char
  | '.' :: '/' :: rest => dropHere rest
  | cs => cs

/-- The one spelling of a file name. -/
def normalize (cs : List Char) : List Char :=
  let plain := dropHere (cs.map fun c => if c == '\\' then '/' else c)
  if plain.isEmpty then ['-'] else plain

/-- The source path of a file name. -/
def ofString (s : String) : SourcePath :=
  ⟨String.ofList (normalize s.toList)⟩

/-- The components of a path that name something: neither empty nor the directory itself. -/
def components (cs : List Char) : List (List Char) :=
  (Text.splitWhere (· == '/') cs).filter fun part => !part.isEmpty && part != ['.']

/-- The last component, or the whole path if that names no file. -/
def fileName (p : SourcePath) : String :=
  match (components p.text.toList).getLast? with
  | none => p.text
  | some last => if last == ['.', '.'] then p.text else String.ofList last

instance : Ord SourcePath where
  compare a b := compare a.text b.text

end SourcePath

/-- A line of a file. -/
structure Location where
  path : SourcePath
  line : Nat
deriving DecidableEq, Repr, Inhabited

namespace Location

/-- The printed form, `path:line`. -/
def text (l : Location) : String :=
  s!"{l.path.text}:{l.line}"

/-- Locations in order of path, then line. -/
def order : Location → Location → Ordering :=
  compareLex (compareOn (·.path)) (compareOn (·.line))

instance : Ord Location where
  compare := order

end Location

end BibAudit
