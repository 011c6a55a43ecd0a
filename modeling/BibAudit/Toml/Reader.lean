/-
# BibAudit.Toml.Reader — reading a TOML document.

A document is a sequence of lines: blank, a header, or a key with its value.  A value may go on over
several lines inside brackets, braces and triple quotes.  Brackets and braces nest to a fixed depth
at most, which is what the readers of values count down, and a key has no more parts than that.
-/
import BibAudit.Toml.Scalar

namespace BibAudit.Toml

/-! ## Between values -/

/-- A space or a tab. -/
def isSpace (c : Char) : Bool :=
  c == ' ' || c == '\t'

/-- What is left after spaces and tabs. -/
def skipSpaces (cs : List Char) : List Char :=
  cs.dropWhile isSpace

/-- What is left after a comment and its line ending, if a comment stands there. -/
def skipComment (cs : List Char) : Option (List Char) :=
  match cs with
  | '#' :: rest => some (rest.dropWhile isPrintable)
  | cs => some cs

/-- What is left of a line after its value or header: spaces, a comment, and the line ending. -/
def endLine (cs : List Char) : Option (List Char) :=
  (skipComment (skipSpaces cs)).bind fun
    | [] => some []
    | '\n' :: rest => some rest
    | '\r' :: '\n' :: rest => some rest
    | _ => none

/-- What is left after spaces, comments and line endings; `lines` bounds their number. -/
def skipFiller : Nat → List Char → Option (List Char)
  | 0, cs => some cs
  | lines + 1, cs =>
    match skipSpaces cs with
    | c :: rest =>
      if c == '#' || c == '\n' || c == '\r' then
        (endLine (c :: rest)).bind (skipFiller lines)
      else some (c :: rest)
    | [] => some []

/-- What is left after everything that may stand between the parts of a bracketed value. -/
def filler (cs : List Char) : Option (List Char) :=
  skipFiller (cs.length + 1) cs

/-! ## Keys -/

/-- A character of a bare key. -/
def isBare (c : Char) : Bool :=
  c.isAlphanum || c == '-' || c == '_'

/-- One part of a key, and what is left. -/
def keyPart (cs : List Char) : Text :=
  let bare := cs.takeWhile isBare
  if bare.isEmpty then quotedKey cs else some (bare, cs.dropWhile isBare)

/-- A key of one to `parts` parts with dots between them, and what is left after spaces. -/
def keyFrom : Nat → List Char → Option (List String × List Char)
  | 0, _ => none
  | parts + 1, cs =>
    (keyPart (skipSpaces cs)).bind fun (part, rest) =>
      match skipSpaces rest with
      | '.' :: rest =>
        (keyFrom parts rest).map fun (path, rest) => (String.ofList part :: path, rest)
      | rest => some ([String.ofList part], rest)

/-- How deep brackets and braces nest at most, and how many parts a key has at most. -/
def nestingLimit : Nat := 80

/-- A key: the path to its table, its last part, and what is left. -/
def key? (cs : List Char) : Option (List String × String × List Char) :=
  (keyFrom nestingLimit cs).bind fun (parts, rest) =>
    parts.getLast?.map fun last => (parts.dropLast, last, rest)

/-- A key of an inline table with its equals sign: the path, the last part, and what is left from the
value on.  Lines may end on both sides of the sign. -/
def memberKey (cs : List Char) : Option (List String × String × List Char) :=
  (key? cs).bind fun (path, key, rest) =>
    match filler rest with
    | some ('=' :: rest) => (filler rest).map fun rest => (path, key, rest)
    | _ => none

/-! ## Values -/

/-- A character that no run of a number, a boolean or a date holds. -/
def endsRun (c : Char) : Bool :=
  isSpace c || ['\n', '\r', ',', ']', '}', '[', '{', '#', '=', '"', Char.ofNat 0x27].contains c

/-- A run of characters as a value, and what is left; a date takes the time after a space along. -/
def scalarValue (cs : List Char) : Option (Value × List Char) :=
  let run := cs.takeWhile fun c => !endsRun c
  let rest := cs.dropWhile fun c => !endsRun c
  match rest with
  | ' ' :: c :: more =>
    if isDateOnly run && c.isDigit then
      let time := (c :: more).takeWhile fun c => !endsRun c
      (scalar? (run ++ ' ' :: time)).map fun v =>
        (v, (c :: more).dropWhile fun c => !endsRun c)
    else (scalar? run).map fun v => (v, rest)
  | rest => (scalar? run).map fun v => (v, rest)

mutual

/-- A value, and what is left after it; brackets and braces nest `depth` deep at most. -/
def value (depth : Nat) (cs : List Char) : Option (Value × List Char) :=
  match cs with
  | [] => none
  | c :: rest =>
    if c == '"' || c.toNat == 0x27 then
      (quoted cs).map fun (s, rest) => (.string (String.ofList s), rest)
    else if c == '[' then
      match depth with
      | 0 => none
      | depth + 1 => (items depth cs.length [] rest).map fun (vs, rest) => (.array vs, rest)
    else if c == '{' then
      match depth with
      | 0 => none
      | depth + 1 =>
        (members depth cs.length [] rest).map fun (ms, rest) => (.table .inline ms, rest)
    else scalarValue cs
termination_by (depth, 0)

/-- The items of an array after its opening bracket or a comma, and what is left after the closing
bracket; `most` bounds their number. -/
def items (depth most : Nat) (seen : List Value) (cs : List Char) :
    Option (List Value × List Char) :=
  match most with
  | 0 => none
  | most + 1 =>
    match filler cs with
    | none => none
    | some (']' :: rest) => some (seen.reverse, rest)
    | some cs =>
      match value depth cs with
      | none => none
      | some (v, rest) =>
        match filler rest with
        | some (',' :: rest) => items depth most (v :: seen) rest
        | some (']' :: rest) => some ((v :: seen).reverse, rest)
        | _ => none
termination_by (depth, most + 1)

/-- The members of an inline table after its opening brace or a comma, and what is left after the
closing brace. -/
def members (depth most : Nat) (seen : Members) (cs : List Char) :
    Option (Members × List Char) :=
  match most with
  | 0 => none
  | most + 1 =>
    match filler cs with
    | none => none
    | some ('}' :: rest) => some (seen, rest)
    | some cs =>
      match memberKey cs with
      | none => none
      | some (path, key, rest) =>
        match value depth rest with
        | none => none
        | some (v, rest) =>
          match define path key v .inline seen, filler rest with
          | some seen, some (',' :: rest) => members depth most seen rest
          | some seen, some ('}' :: rest) => some (seen, rest)
          | _, _ => none
termination_by (depth, most + 1)

end

/-! ## Lines -/

/-- What has been read: all tables, and the path of the table that keys go to. -/
structure Document where
  root : Members
  current : List String
deriving Repr

/-- Define a key in the current table. -/
def Document.define (d : Document) (path : List String) (key : String) (v : Value) :
    Option Document :=
  (changeAt false (Toml.define path key v) d.current .header d.root).map
    fun root => { d with root := root }

/-- Read a header after its opening bracket, and what is left after its closing one. -/
def header (d : Document) (cs : List Char) : Option (Document × List Char) :=
  match cs with
  | '[' :: cs =>
    match key? cs with
    | some (path, key, ']' :: ']' :: rest) =>
      (openTables path key d.root).map fun root => (⟨root, path ++ [key]⟩, rest)
    | _ => none
  | cs =>
    match key? cs with
    | some (path, key, ']' :: rest) =>
      (openTable path key d.root).map fun root => (⟨root, path ++ [key]⟩, rest)
    | _ => none

/-- Read the line at the start of a text. -/
def line (d : Document) (cs : List Char) : Option (Document × List Char) :=
  match skipSpaces cs with
  | [] => some (d, [])
  | c :: rest =>
    if c == '#' || c == '\n' || c == '\r' then (endLine (c :: rest)).map fun rest => (d, rest)
    else if c == '[' then
      (header d rest).bind fun (d, rest) => (endLine rest).map fun rest => (d, rest)
    else
      match key? (c :: rest) with
      | some (path, key, '=' :: rest) =>
        (value nestingLimit (skipSpaces rest)).bind fun (v, rest) =>
          (d.define path key v).bind fun d => (endLine rest).map fun rest => (d, rest)
      | _ => none

/-- Read lines to the end of a text; `most` bounds their number. -/
def linesFrom : Nat → Document → List Char → Option Members
  | _, d, [] => some d.root
  | 0, _, _ :: _ => none
  | most + 1, d, cs => (line d cs).bind fun (d, rest) => linesFrom most d rest

/-- The table that a document denotes; a byte order mark in front does not count. -/
def parse? (text : String) : Option Members :=
  let cs := text.toList
  let cs := match cs with
    | c :: rest => if c.toNat == 0xFEFF then rest else cs
    | [] => cs
  linesFrom (cs.length + 1) ⟨[], []⟩ cs

end BibAudit.Toml
