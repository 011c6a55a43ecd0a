/-
# BibAudit.Toml.Quoted — the four kinds of TOML strings.

Basic strings have escapes, literal strings have none; either stands on one line between single
quotes of its kind, or over several lines between triple ones.  Every reader here starts after the
opening quotes and gives the text and what is left after the closing ones.
-/
import BibAudit.Text.Basic

namespace BibAudit.Toml

/-- A tab, or a character that is no control. -/
def isPrintable (c : Char) : Bool :=
  c == '\t' || (0x20 ≤ c.toNat && c.toNat != 0x7F)

/-- The character of a one-letter escape. -/
def escaped? : Char → Option Char
  | 'b' => some (Char.ofNat 0x08)
  | 't' => some '\t'
  | 'n' => some '\n'
  | 'f' => some (Char.ofNat 0x0C)
  | 'r' => some '\r'
  | 'e' => some (Char.ofNat 0x1B)
  | '"' => some '"'
  | '\\' => some '\\'
  | _ => none

/-- How many hexadecimal digits follow the letter of an escape. -/
def hexLength? : Char → Option Nat
  | 'x' => some 2
  | 'u' => some 4
  | 'U' => some 8
  | _ => none

/-- The character of a code point, if it is one. -/
def charOf? (n : Nat) : Option Char :=
  if n < 0xD800 || (0xE000 ≤ n && n < 0x110000) then some (Char.ofNat n) else none

/-- Text read so far in reverse, and what is left. -/
abbrev Text := Option (List Char × List Char)

/-- What is being read inside a basic string. -/
inductive Inside
  | plain
  /-- After a backslash. -/
  | escape
  /-- So many hexadecimal digits are due. -/
  | hex (due value : Nat)
  /-- After a backslash and blanks, where the line must end. -/
  | lineEnd
  /-- After such a line end, where blanks and line ends are passed over. -/
  | skipping
deriving DecidableEq, Repr

/-- One character of an escape: the text so far, and what is read next. -/
def stepEscape (seen : List Char) (c : Char) : Option (List Char × Inside) :=
  match escaped? c with
  | some d => some (d :: seen, .plain)
  | none => (hexLength? c).map fun due => (seen, .hex due 0)

/-- One hexadecimal digit of an escape. -/
def stepHex (seen : List Char) (due value : Nat) (c : Char) : Option (List Char × Inside) :=
  (Text.hexDigit? c).bind fun d =>
    if due ≤ 1 then (charOf? (16 * value + d)).map fun e => (e :: seen, .plain)
    else some (seen, .hex (due - 1) (16 * value + d))

/-- A basic string on one line. -/
def basic : Inside → List Char → List Char → Text
  | _, _, [] => none
  | .plain, seen, c :: rest =>
    if c == '"' then some (seen.reverse, rest)
    else if c == '\\' then basic .escape seen rest
    else if isPrintable c then basic .plain (c :: seen) rest
    else none
  | .escape, seen, c :: rest =>
    (stepEscape seen c).bind fun (seen, inside) => basic inside seen rest
  | .hex due value, seen, c :: rest =>
    (stepHex seen due value c).bind fun (seen, inside) => basic inside seen rest
  | .lineEnd, _, _ :: _ | .skipping, _, _ :: _ => none

/-- A literal string on one line. -/
def literal : List Char → List Char → Text
  | _, [] => none
  | seen, c :: rest =>
    if c.toNat == 0x27 then some (seen.reverse, rest)
    else if isPrintable c then literal (c :: seen) rest
    else none

/-- The text before a closing triple quote, to which up to two more quotes still belong. -/
def closeTriple (quote : Char) (seen rest : List Char) : List Char × List Char :=
  match rest with
  | a :: b :: rest' =>
    if a == quote && b == quote then ((quote :: quote :: seen).reverse, rest')
    else if a == quote then ((quote :: seen).reverse, b :: rest')
    else (seen.reverse, rest)
  | [a] => if a == quote then ((quote :: seen).reverse, []) else (seen.reverse, rest)
  | [] => (seen.reverse, [])

/-- Three quotes stand at the start of a text. -/
def isTriple (quote : Char) (cs : List Char) : Bool :=
  cs.take 3 == [quote, quote, quote]

/-- A character inside a string of several lines: printable, a newline, or a carriage return before
one. -/
def isInLines (c : Char) (rest : List Char) : Bool :=
  isPrintable c || c == '\n' || (c == '\r' && rest.head? == some '\n')

/-- A basic string over several lines. -/
def basicLines : Inside → List Char → List Char → Text
  | _, _, [] => none
  | .escape, seen, c :: rest =>
    if c == ' ' || c == '\t' then basicLines .lineEnd seen rest
    else if c == '\n' then basicLines .skipping seen rest
    else if c == '\r' then
      if rest.head? == some '\n' then basicLines .skipping seen rest else none
    else (stepEscape seen c).bind fun (seen, inside) => basicLines inside seen rest
  | .hex due value, seen, c :: rest =>
    (stepHex seen due value c).bind fun (seen, inside) => basicLines inside seen rest
  | .lineEnd, seen, c :: rest =>
    if c == ' ' || c == '\t' then basicLines .lineEnd seen rest
    else if c == '\n' then basicLines .skipping seen rest
    else if c == '\r' && rest.head? == some '\n' then basicLines .skipping seen rest
    else none
  | .skipping, seen, c :: rest =>
    if c == ' ' || c == '\t' || c == '\n' || (c == '\r' && rest.head? == some '\n') then
      basicLines .skipping seen rest
    else if c == '"' && isTriple '"' (c :: rest) then some (closeTriple '"' seen (rest.drop 2))
    else if c == '\\' then basicLines .escape seen rest
    else if isInLines c rest then basicLines .plain (c :: seen) rest
    else none
  | .plain, seen, c :: rest =>
    if c == '"' && isTriple '"' (c :: rest) then some (closeTriple '"' seen (rest.drop 2))
    else if c == '\\' then basicLines .escape seen rest
    else if isInLines c rest then basicLines .plain (c :: seen) rest
    else none

/-- A literal string over several lines. -/
def literalLines : List Char → List Char → Text
  | _, [] => none
  | seen, c :: rest =>
    let quote := Char.ofNat 0x27
    if c == quote && isTriple quote (c :: rest) then some (closeTriple quote seen (rest.drop 2))
    else if isInLines c rest then literalLines (c :: seen) rest
    else none

/-- A newline right after triple quotes is no part of the text. -/
def dropNewline : List Char → List Char
  | '\n' :: rest => rest
  | '\r' :: '\n' :: rest => rest
  | cs => cs

/-- A string of any kind, from its opening quotes on; none if no quote stands there. -/
def quoted (cs : List Char) : Text :=
  let quote := Char.ofNat 0x27
  if isTriple '"' cs then basicLines .plain [] (dropNewline (cs.drop 3))
  else if isTriple quote cs then literalLines [] (dropNewline (cs.drop 3))
  else match cs with
    | c :: rest =>
      if c == '"' then basic .plain [] rest
      else if c == quote then literal [] rest
      else none
    | [] => none

/-- A string on one line, as it may stand for a key. -/
def quotedKey (cs : List Char) : Text :=
  match cs with
  | c :: rest =>
    if c == '"' then basic .plain [] rest
    else if c.toNat == 0x27 then literal [] rest
    else none
  | [] => none

end BibAudit.Toml
