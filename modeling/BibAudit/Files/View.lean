/-
# BibAudit.Files.View — what the paths of a run lead to.

A run sees files only through a view, which says for every path what stands there: a directory, a
file with its bytes, or an error.  Reading a file and asking whether it is there are both answered
from this.
-/
import BibAudit.Text.Utf8

namespace BibAudit

/-- Why a path gives nothing. -/
inductive FileError
  | notFound
  | isDirectory
  | notDirectory
  | nameTooLong
  /-- A path cannot contain the character U+0000. -/
  | nulInPath
  /-- The file was to be text and is not. -/
  | notUtf8
  /-- Any other answer of the system. -/
  | system (description : String) (code : Nat)
deriving DecidableEq, Repr

/-- The wording of an error that the system numbers. -/
def FileError.numbered (description : String) (code : Nat) : String :=
  s!"{description} (os error {code})"

/-- The wording of an error. -/
def FileError.message : FileError → String
  | .notFound => numbered "No such file or directory" 2
  | .isDirectory => numbered "Is a directory" 21
  | .notDirectory => numbered "Not a directory" 20
  | .nameTooLong => numbered "File name too long" 36
  | .nulInPath => "file name contained an unexpected NUL byte"
  | .notUtf8 => "stream did not contain valid UTF-8"
  | .system description code => numbered description code

/-- What can stand at a path. -/
inductive FileNode
  | directory
  | file (bytes : List UInt8)
deriving DecidableEq, Repr

/-- What stands at each path. -/
abbrev FileView := String → Except FileError FileNode

namespace FileView

/-- The view that knows these paths and no others. -/
def ofList (known : List (String × Except FileError FileNode)) : FileView :=
  fun path => (known.lookup path).getD (.error .notFound)

/-- The bytes of a file. -/
def bytes (view : FileView) (path : String) : Except FileError (List UInt8) :=
  match view path with
  | .ok (.file bytes) => .ok bytes
  | .ok .directory => .error .isDirectory
  | .error e => .error e

/-- The text of a file, bad bytes replaced. -/
def textLossy (view : FileView) (path : String) : Except FileError String :=
  (view.bytes path).map fun bytes => String.ofList (Text.decodeLossy bytes)

/-- The text of a file that has no bad bytes. -/
def textStrict (view : FileView) (path : String) : Except FileError String :=
  match view.bytes path with
  | .error e => .error e
  | .ok bytes =>
    match Text.decodeStrict? bytes with
    | some cs => .ok (String.ofList cs)
    | none => .error .notUtf8

/-- Something stands at the path.  A path that leads nowhere is no error here; all other errors
are. -/
def present (view : FileView) (path : String) : Except FileError Bool :=
  match view path with
  | .ok _ => .ok true
  | .error .notFound => .ok false
  | .error e => .error e

end FileView

end BibAudit
