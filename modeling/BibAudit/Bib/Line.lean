/-
# BibAudit.Bib.Line — what a line of a bibliography is.

A line is judged alone, without regard to the lines around it, once blanks around it are left out.
Its first character decides: a percent sign makes a comment or a suppression directive, a closing
brace a closing line, an at sign a header or a special block.  Any other line starts a field if a
name and an equals sign lead it, and is plain text otherwise.
-/
import BibAudit.Text.Basic
import BibAudit.Text.Class.WordPart

namespace BibAudit.Bib

/-- What a line is. -/
inductive LineKind
  | blank
  | comment
  /-- A directive that a check leave the next entry alone. -/
  | suppression (check : List Char) (reason : Option (List Char))
  /-- The header of an entry: its type, its key, and what follows the comma. -/
  | header (kind key rest : List Char)
  /-- The start of a comment, string or preamble block. -/
  | special
  | malformedHeader
  | fieldStart (name value : List Char)
  | close
  | text
deriving DecidableEq, Repr

/-- Lines that end whatever entry is open. -/
def LineKind.isBoundary : LineKind → Bool
  | header .. | special | malformedHeader => true
  | _ => false

/-! ## Character sets -/

/-- Characters of a citation key. -/
def isKeyChar (c : Char) : Bool :=
  c.isAlphanum || c == '-' || c == '.' || c == '_' || c == ':' || c == '/'

/-- Characters of a field name. -/
def isNameChar (c : Char) : Bool :=
  c.isAlphanum || c == '-' || c == '_'

/-! ## The kinds one by one -/

/-- A name, an equals sign and a value, blanks allowed around the sign. -/
def field? (cs : List Char) : Option (List Char × List Char) :=
  let name := cs.takeWhile isNameChar
  match Text.trimStart (cs.dropWhile isNameChar) with
  | '=' :: value => if name.isEmpty then none else some (name, Text.trimStart value)
  | _ => none

/-- What follows the percent sign of a directive: the word LINT, a check name, and a reason. -/
def directive? (cs : List Char) : Option (List Char × Option (List Char)) :=
  match Text.trimStart cs with
  | 'L' :: 'I' :: 'N' :: 'T' :: rest =>
    let subject := Text.trimStart rest
    let check := subject.takeWhile fun c => !Text.isBlank c
    let reason := Text.trim (subject.dropWhile fun c => !Text.isBlank c)
    if subject.length < rest.length && !check.isEmpty then
      some (check, if reason.isEmpty then none else some reason)
    else none
  | _ => none

/-- A letter of a block name: case is ignored, and the long s is an s. -/
def foldLetter (c : Char) : Char :=
  if c.toNat == 0x17F then 's' else c.toLower

/-- The text starts with a block name that no further word character continues. -/
def startsWithWord (word cs : List Char) : Bool :=
  (cs.take word.length).map foldLetter == word &&
    match (cs.drop word.length).head? with
    | none => true
    | some c => !Text.continuesWord c

/-- What follows the at sign starts a block that is not an entry. -/
def isSpecial (cs : List Char) : Bool :=
  let cs := Text.trimStart cs
  startsWithWord "comment".toList cs || startsWithWord "string".toList cs ||
    startsWithWord "preamble".toList cs

/-- What follows the at sign of a header: type, opening brace, key, comma, and the rest. -/
def header? (cs : List Char) : Option (List Char × List Char × List Char) :=
  let cs := Text.trimStart cs
  let kind := cs.takeWhile Char.isAlpha
  match Text.trimStart (cs.dropWhile Char.isAlpha) with
  | '{' :: inside =>
    let inside := Text.trimStart inside
    let key := inside.takeWhile isKeyChar
    match Text.trimStart (inside.dropWhile isKeyChar) with
    | ',' :: rest => if kind.isEmpty || key.isEmpty then none else some (kind, key, rest)
    | _ => none
  | _ => none

/-- What a line is. -/
def classify (line : List Char) : LineKind :=
  match Text.trim line with
  | [] => .blank
  | '%' :: rest =>
    match directive? rest with
    | some (check, reason) => .suppression check reason
    | none => .comment
  | '}' :: _ => .close
  | '@' :: rest =>
    if isSpecial rest then .special
    else match header? rest with
      | some (kind, key, rest) => .header kind key rest
      | none => .malformedHeader
  | cs =>
    match field? cs with
    | some (name, value) => .fieldStart name value
    | none => .text

end BibAudit.Bib
