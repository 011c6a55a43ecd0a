/-
# BibAudit.Files.Tree — files below a working directory.

A tree is a view of files that are held in memory.  It gives a node to every list of names below the
working directory.  A path is walked name by name: an empty name and `.` stay, `..` goes up, and
every other name has to be there.  Whatever is walked from must be a directory, also when the name
stays.  About the world above the working directory the tree knows only that its directories can be
walked through.
-/
import BibAudit.Files.View
import BibAudit.Text.Basic

namespace BibAudit

/-- The nodes below a working directory, the newest first. -/
structure FileTree where
  nodes : List (List String × FileNode)

namespace FileTree

/-- Nothing but the working directory. -/
def empty : FileTree := ⟨[]⟩

/-- What these names lead to. -/
def node? (t : FileTree) : List String → Option FileNode
  | [] => some .directory
  | names => t.nodes.lookup names

/-! ## Making -/

/-- The names between slashes. -/
def pieces (path : String) : List String :=
  (Text.splitWhere (· == '/') path.toList).map String.ofList

/-- The names of a path that lead further down. -/
def names (path : String) : List String :=
  (pieces path).filter fun name => name != "" && name != "."

/-- Make a directory, unless something is there. -/
def addDirectory (t : FileTree) (here : List String) : FileTree :=
  if (t.node? here).isSome then t else ⟨(here, .directory) :: t.nodes⟩

/-- Make the directories above a node, from the outside in. -/
def addParents (t : FileTree) (here : List String) : FileTree :=
  ((List.range here.length).map fun n => here.take n).foldl addDirectory t

/-- Make a node and the directories above it; a file takes the place of an older file. -/
def add (t : FileTree) (here : List String) : FileNode → FileTree
  | .directory => (t.addParents here).addDirectory here
  | .file bytes => ⟨(here, .file bytes) :: (t.addParents here).nodes⟩

/-- The tree with these files.  A name that ends in a slash makes a directory. -/
def ofFiles (files : List (String × List UInt8)) : FileTree :=
  files.foldl
    (fun t (path, bytes) =>
      t.add (names path) (if path.endsWith "/" then .directory else .file bytes))
    empty

/-! ## Walking -/

/-- Where a path has led so far. -/
inductive Place
  /-- At these names below the working directory. -/
  | below (names : List String)
  /-- In some directory above it. -/
  | above
deriving DecidableEq, Repr

/-- The longest name, in bytes. -/
def longestName : Nat := 255

/-- The first length that a path may not have, in bytes. -/
def pathLimit : Nat := 4096

/-- One step of a walk. -/
def enter (t : FileTree) (place : Place) (name : String) : Except FileError Place :=
  match place with
  | .above =>
    if name == "" || name == "." || name == ".." then .ok .above
    else if longestName < name.utf8ByteSize then .error .nameTooLong
    else .error .notFound
  | .below here =>
    match t.node? here with
    | none => .error .notFound
    | some (.file _) => .error .notDirectory
    | some .directory =>
      if name == "" || name == "." then .ok (.below here)
      else if name == ".." then .ok (if here.isEmpty then .above else .below here.dropLast)
      else if longestName < name.utf8ByteSize then .error .nameTooLong
      else if (t.node? (here ++ [name])).isSome then .ok (.below (here ++ [name]))
      else .error .notFound

/-- Where a path leads. -/
def walk (t : FileTree) (path : String) : Except FileError Place :=
  if path.toList.contains (Char.ofNat 0) then .error .nulInPath
  else if path.isEmpty then .error .notFound
  else if pathLimit ≤ path.utf8ByteSize then .error .nameTooLong
  else (pieces path).foldlM t.enter (if path.startsWith "/" then .above else .below [])

/-- What stands at each path. -/
def view (t : FileTree) : FileView := fun path =>
  match t.walk path with
  | .error e => .error e
  | .ok .above => .ok .directory
  | .ok (.below here) =>
    match t.node? here with
    | some node => .ok node
    | none => .error .notFound

end FileTree

end BibAudit
