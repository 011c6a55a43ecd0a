/-
# BibAudit.Files.LocalCopies — copies of cited works in a directory.

The copy of a work is a file named for its key, with one of two extensions.  A key may contain colons
and slashes, which file names do without: both become underscores.
-/
import BibAudit.Checks.Context
import BibAudit.Files.View

namespace BibAudit.LocalCopies

/-- The extensions of copies, in the order in which they are looked for. -/
def extensions : List String := ["pdf", "txt"]

/-- A key as part of a file name. -/
def stem (key : String) : String :=
  String.ofList (key.toList.map fun c => if c == ':' || c == '/' then '_' else c)

/-- A name in a directory; the empty path is the working directory. -/
def inDirectory (dir name : String) : String :=
  if dir.isEmpty || dir.endsWith "/" then dir ++ name else s!"{dir}/{name}"

/-- Where the copy of the work with this key can be. -/
def candidates (dir key : String) : List String :=
  extensions.map fun extension => inDirectory dir s!"{stem key}.{extension}"

/-- One of the paths is there; paths after that are not looked at. -/
def anyPresent (view : FileView) : List String → Except (String × FileError) Bool
  | [] => .ok false
  | path :: rest =>
    match view.present path with
    | .error e => .error (path, e)
    | .ok true => .ok true
    | .ok false => anyPresent view rest

/-- Ask for copies in a directory. -/
def probe (view : FileView) (dir : String) : Probe := fun key =>
  match anyPresent view (candidates dir key) with
  | .ok found => .ok found
  | .error (path, e) => .error (.localCopy key s!"{path}: {e.message}")

end BibAudit.LocalCopies
