/-
# BibAudit.Value.Scan — reading a field value.

A raw value is a brace group, a quoted string, or bare.  Inside the delimiter, braces that no
backslash stands right before are structure: they are not part of any token, but raise the depth of
what they enclose.  A brace that closes nothing ends the reading; braces left open are reported.
Reading always gives tokens, with at most one error.
-/
import BibAudit.Text.Basic
import BibAudit.Value.Balance
import BibAudit.Value.Token

namespace BibAudit.Value

/-- How a raw value is delimited. -/
inductive Delimiter
  /-- One brace group. -/
  | braces
  /-- One quoted string. -/
  | quotes
  /-- A number, a macro name, or a concatenation. -/
  | bare
deriving DecidableEq, Repr

/-- A brace mismatch. -/
inductive BraceError
  /-- The closing brace at this column, counted in characters from one, closes nothing; the value
  was cut there. -/
  | prematureClose (column : Nat)
  /-- So many braces were left open. -/
  | unclosed (depth : Nat)
deriving DecidableEq, Repr

/-- The wording of a mismatch. -/
def BraceError.message : BraceError → String
  | .prematureClose column =>
    s!"closing brace at column {column} has no opening brace, value truncated"
  | .unclosed depth => s!"{depth} opening brace(s) never closed"

/-! ## Reading characters -/

/-- What a reading leaves of a content, in order: visible characters and gaps between tokens. -/
inductive Mark
  | glyph (g : Glyph)
  | gap
deriving DecidableEq, Repr

/-- Read with `depth` braces open, the next character being at `column`. -/
def readMarks : Nat → Nat → List Char → List Mark × Option BraceError
  | depth, _, [] => ([], if depth = 0 then none else some (.unclosed depth))
  | depth, column, '\\' :: '{' :: rest =>
    let (marks, error) := readMarks depth (column + 2) rest
    (.glyph ⟨'\\', depth⟩ :: .glyph ⟨'{', depth⟩ :: marks, error)
  | depth, column, '\\' :: '}' :: rest =>
    let (marks, error) := readMarks depth (column + 2) rest
    (.glyph ⟨'\\', depth⟩ :: .glyph ⟨'}', depth⟩ :: marks, error)
  | depth, column, '{' :: rest => readMarks (depth + 1) (column + 1) rest
  | 0, column, '}' :: _ => ([], some (.prematureClose column))
  | depth + 1, column, '}' :: rest => readMarks depth (column + 1) rest
  | depth, column, c :: rest =>
    let (marks, error) := readMarks depth (column + 1) rest
    ((if Text.isBlank c then .gap else .glyph ⟨c, depth⟩) :: marks, error)

/-- The glyphs between gaps, empty runs included. -/
def splitMarks : List Mark → List Token
  | [] => [[]]
  | .gap :: rest => [] :: splitMarks rest
  | .glyph g :: rest =>
    match splitMarks rest with
    | [] => [[g]]
    | token :: tokens => (g :: token) :: tokens

/-- The tokens: the non-empty runs of glyphs between gaps. -/
def tokensOf (marks : List Mark) : List Token :=
  (splitMarks marks).filter fun t => !t.isEmpty

/-! ## The outer group -/

/-- With `depth` braces open, the brace that closes the last of them is the last character. -/
def closesAtEnd : Nat → List Char → Bool
  | _, [] => false
  | depth, '\\' :: '{' :: rest => closesAtEnd depth rest
  | depth, '\\' :: '}' :: rest => closesAtEnd depth rest
  | depth, '{' :: rest => closesAtEnd (depth + 1) rest
  | 0, '}' :: _ => false
  | 1, '}' :: rest => rest.isEmpty
  | depth + 2, '}' :: rest => closesAtEnd (depth + 1) rest
  | depth, _ :: rest => closesAtEnd depth rest

/-- The content, blanks around it aside, is one brace group. -/
def isOneGroup (content : List Char) : Bool :=
  match Text.trim content with
  | '{' :: rest => closesAtEnd 1 rest
  | _ => false

/-! ## Values -/

/-- A value that has been read. -/
structure Scanned where
  delimiter : Delimiter
  tokens : List Token
  error : Option BraceError
  oneGroup : Bool
deriving DecidableEq, Repr

/-- Read a content that has no delimiter around it. -/
def scanContent (content : List Char) : Scanned :=
  let (marks, error) := readMarks 0 1 content
  ⟨.bare, tokensOf marks, error, isOneGroup content⟩

/-- The delimiter of a trimmed value, and what it encloses. -/
def splitDelimiter (value : List Char) : Delimiter × List Char :=
  if 2 ≤ value.length && value.head? == some '"' && value.getLast? == some '"' then
    (.quotes, value.tail.dropLast)
  else if value.head? == some '{' && closing? value == some (value.length - 1) then
    (.braces, value.tail.dropLast)
  else (.bare, value)

/-- Read a raw value: its delimiter, and the content inside. -/
def scanField (raw : List Char) : Scanned :=
  let (delimiter, content) := splitDelimiter (Text.trim raw)
  { scanContent content with delimiter := delimiter }

namespace Scanned

/-- The tokens with single spaces between them. -/
def plainChars (s : Scanned) : List Char :=
  [' '].intercalate (s.tokens.map Token.chars)

/-- The readable text of a value. -/
def plainText (s : Scanned) : String :=
  String.ofList s.plainChars

/-- The whole content is one brace group, around more than one word. -/
def isOverquoted (s : Scanned) : Bool :=
  s.oneGroup && s.tokens.length > 1

end Scanned

end BibAudit.Value
