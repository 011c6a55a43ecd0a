/-
# BibAudit.Json.Printer — writing JSON.

The indented form puts every item and member on a line of its own, two spaces deeper than what holds
it; an empty array or object stays closed on its line.  The compact form has no blanks.  Strings
escape quotes, backslashes and control characters, and nothing else.
-/
import BibAudit.Json.Value

namespace BibAudit.Json

/-- Lower-case hexadecimal digits of a control character, four places wide. -/
def unitEscape (n : Nat) : List Char :=
  ['\\', 'u', '0', '0', Nat.digitChar (n / 16), Nat.digitChar (n % 16)]

/-- One character of a string. -/
def escapeChar (c : Char) : List Char :=
  if c == '"' then ['\\', '"']
  else if c == '\\' then ['\\', '\\']
  else if c.toNat == 8 then ['\\', 'b']
  else if c.toNat == 9 then ['\\', 't']
  else if c.toNat == 10 then ['\\', 'n']
  else if c.toNat == 12 then ['\\', 'f']
  else if c.toNat == 13 then ['\\', 'r']
  else if c.toNat < 0x20 then unitEscape c.toNat
  else [c]

/-- A string between quotes. -/
def quoted (s : String) : List Char :=
  '"' :: s.toList.flatMap escapeChar ++ ['"']

/-- A line break, and the indentation of a depth. -/
def newline (depth : Nat) : List Char :=
  '\n' :: List.replicate (2 * depth) ' '

mutual

/-- The indented form of a value at a depth. -/
def prettyAt (depth : Nat) : Json → List Char
  | null => "null".toList
  | bool b => (if b then "true" else "false").toList
  | int n => (toString n).toList
  | real text => text.toList
  | str s => quoted s
  | arr [] => ['[', ']']
  | arr (v :: vs) =>
    '[' :: newline (depth + 1) ++ prettyAt (depth + 1) v ++ prettyItems (depth + 1) vs ++
      newline depth ++ [']']
  | obj [] => ['{', '}']
  | obj ((name, v) :: ms) =>
    '{' :: newline (depth + 1) ++ quoted name ++ [':', ' '] ++ prettyAt (depth + 1) v ++
      prettyMembers (depth + 1) ms ++ newline depth ++ ['}']

/-- Further items, each after a comma. -/
def prettyItems (depth : Nat) : List Json → List Char
  | [] => []
  | v :: vs => ',' :: newline depth ++ prettyAt depth v ++ prettyItems depth vs

/-- Further members, each after a comma. -/
def prettyMembers (depth : Nat) : List (String × Json) → List Char
  | [] => []
  | (name, v) :: ms =>
    ',' :: newline depth ++ quoted name ++ [':', ' '] ++ prettyAt depth v ++
      prettyMembers depth ms

end

/-- The indented form of a value. -/
def pretty (v : Json) : String :=
  String.ofList (prettyAt 0 v)

mutual

/-- The compact form of a value, before some following text. -/
def compactChars : Json → List Char
  | null => "null".toList
  | bool b => (if b then "true" else "false").toList
  | int n => (toString n).toList
  | real text => text.toList
  | str s => quoted s
  | arr items => '[' :: compactItems items ++ [']']
  | obj members => '{' :: compactMembers members ++ ['}']

/-- Items, with commas between them. -/
def compactItems : List Json → List Char
  | [] => []
  | [v] => compactChars v
  | v :: vs => compactChars v ++ ',' :: compactItems vs

/-- Members, with commas between them. -/
def compactMembers : List (String × Json) → List Char
  | [] => []
  | [(name, v)] => quoted name ++ ':' :: compactChars v
  | (name, v) :: ms => quoted name ++ ':' :: compactChars v ++ ',' :: compactMembers ms

end

/-- The compact form of a value. -/
def compact (v : Json) : String :=
  String.ofList (compactChars v)

end BibAudit.Json
