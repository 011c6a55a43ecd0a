/-
# BibAudit.Tex.Citation — the keys that a document cites.

A document is read line by line.  What follows a percent sign is a comment, unless a backslash
stands right before the sign that is not itself escaped.  A citation command may begin with `no`, end
in `t` or `p`, carry a star and up to two optional arguments; its last argument lists keys.
-/
import BibAudit.Bibliography
import BibAudit.Tex.Pattern
import BibAudit.Text.Basic

namespace BibAudit.Tex

/-- A line up to its comment; `escaped` if the character before was an unescaped backslash. -/
def stripFrom (escaped : Bool) : List Char → List Char
  | [] => []
  | c :: rest =>
    if c == '%' && !escaped then []
    else c :: stripFrom (c == '\\' && !escaped) rest

/-- A line without its comment. -/
def stripComment (line : List Char) : List Char :=
  stripFrom false line

/-- The name of a citation command after its backslash, up to the star. -/
def citeName? (cs : List Char) : Option (List Char) :=
  let cs := ("no".toList.isPrefixOf? cs).getD cs
  match ("cite".toList.isPrefixOf? cs).or ("Cite".toList.isPrefixOf? cs) with
  | some rest => some (dropOptional (fun c => c == 't' || c == 'p') rest)
  | none => none

/-- A citation command; the match is the list of keys as written. -/
def cite : Pattern (List Char)
  | '\\' :: rest =>
    (citeName? rest).bind fun rest =>
      group '{' '}' (dropGroup '[' ']' (dropGroup '[' ']' (dropOptional (· == '*') rest)))
  | _ => none

/-- The keys in a list of keys. -/
def keysOf (listed : List Char) : List String :=
  (((Text.splitWhere (· == ',') listed).map Text.trim).filter fun k => !k.isEmpty).map
    String.ofList

/-- The lines of a text with their numbers. -/
def numberedLines (text : String) : List (List Char × Nat) :=
  (Text.lines text.toList).zipIdx 1

/-- The keys cited on one line. -/
def citedOn (line : List Char) : List String :=
  (findAll cite (stripComment line)).flatMap keysOf

/-- Every citation of a document, in order. -/
def citations (path : SourcePath) (text : String) : List Citation :=
  (numberedLines text).flatMap fun (line, n) =>
    (citedOn line).map fun key => ⟨key, ⟨path, n⟩⟩

end BibAudit.Tex
