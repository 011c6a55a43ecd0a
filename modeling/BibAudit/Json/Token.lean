/-
# BibAudit.Json.Token — the tokens of a JSON text.

Tokens are read character by character in a small machine: between tokens, in a word or number, in
a string, after a backslash, or in the digits of an escaped code unit.  Two escaped surrogate units
in a row are one character; a surrogate alone is refused, as is a control character in a string.
-/
import BibAudit.Json.Value
import BibAudit.Text.Basic

namespace BibAudit.Json

/-- A token. -/
inductive Token
  | openObject
  | closeObject
  | openArray
  | closeArray
  | comma
  | colon
  | null
  | bool (b : Bool)
  | int (n : Int)
  | real (text : String)
  | str (s : String)
deriving DecidableEq, Repr

/-! ## Numbers and words -/

/-- One digit or more, the first not zero unless it stands alone. -/
def isWhole (cs : List Char) : Bool :=
  Text.isNumeral cs && (cs.head? != some '0' || cs.length == 1)

/-- An exponent: a sign or none, and digits. -/
def isExponent : List Char → Bool
  | '+' :: ds => Text.isNumeral ds
  | '-' :: ds => Text.isNumeral ds
  | ds => Text.isNumeral ds

/-- What may follow the whole part of a real number: a fraction, an exponent, or both. -/
def isFractionOrExponent : List Char → Bool
  | '.' :: rest =>
    let rest' := rest.dropWhile Char.isDigit
    !(rest.takeWhile Char.isDigit).isEmpty &&
      match rest' with
      | [] => true
      | e :: ds => (e == 'e' || e == 'E') && isExponent ds
  | e :: ds => (e == 'e' || e == 'E') && isExponent ds
  | [] => false

/-- A number without its sign. -/
def magnitude? (negative : Bool) (cs : List Char) : Option Token :=
  let whole := cs.takeWhile Char.isDigit
  let rest := cs.dropWhile Char.isDigit
  let text := String.ofList (if negative then '-' :: cs else cs)
  let n : Int := Text.decimalValue whole
  if !isWhole whole then none
  else if rest.isEmpty then
    if negative then (if n = 0 then some (.real text) else some (.int (-n)))
    else some (.int n)
  else if isFractionOrExponent rest then some (.real text)
  else none

/-- The token of a run of characters that are neither blank nor punctuation. -/
def word? (cs : List Char) : Option Token :=
  if cs == "null".toList then some .null
  else if cs == "true".toList then some (.bool true)
  else if cs == "false".toList then some (.bool false)
  else match cs with
    | '-' :: rest => magnitude? true rest
    | _ => magnitude? false cs

/-! ## The machine -/

/-- What is being read; texts are kept in reverse. -/
inductive Mode
  | between
  | word (seen : List Char)
  | string (seen : List Char)
  | escape (seen : List Char)
  /-- In the digits of a code unit, with the first half of a surrogate pair if one waits. -/
  | unit (seen : List Char) (waiting : Option Nat) (digits value : Nat)
  /-- After the first half of a surrogate pair. -/
  | half (seen : List Char) (first : Nat)
  /-- After the backslash of the second half. -/
  | halfEscape (seen : List Char) (first : Nat)
deriving Repr

/-- The blanks of JSON. -/
def isBlank (c : Char) : Bool :=
  c == ' ' || c == '\t' || c == '\n' || c == '\r'

/-- The token of a punctuation character. -/
def punctuation? : Char → Option Token
  | '{' => some .openObject
  | '}' => some .closeObject
  | '[' => some .openArray
  | ']' => some .closeArray
  | ',' => some .comma
  | ':' => some .colon
  | _ => none

/-- The character of a one-letter escape. -/
def escaped? : Char → Option Char
  | '"' => some '"'
  | '\\' => some '\\'
  | '/' => some '/'
  | 'b' => some (Char.ofNat 8)
  | 'f' => some (Char.ofNat 12)
  | 'n' => some '\n'
  | 'r' => some '\r'
  | 't' => some '\t'
  | _ => none

/-- Where the machine goes after a whole code unit. -/
def afterUnit (seen : List Char) (waiting : Option Nat) (value : Nat) : Option Mode :=
  match waiting with
  | some first =>
    if 0xDC00 ≤ value && value < 0xE000 then
      some (.string (Char.ofNat (0x10000 + (first - 0xD800) * 0x400 + (value - 0xDC00)) :: seen))
    else none
  | none =>
    if 0xD800 ≤ value && value < 0xDC00 then some (.half seen value)
    else if 0xDC00 ≤ value && value < 0xE000 then none
    else some (.string (Char.ofNat value :: seen))

/-- A character between tokens. -/
def startToken (c : Char) : List Token × Mode :=
  match punctuation? c with
  | some t => ([t], .between)
  | none =>
    if isBlank c then ([], .between)
    else if c == '"' then ([], .string [])
    else ([], .word [c])

/-- A character that is neither blank, punctuation nor a quote goes on with a word. -/
def continuesWord (c : Char) : Bool :=
  (punctuation? c).isNone && !isBlank c && c != '"'

/-- One character: the tokens it completes, and what is read next. -/
def stepToken : Mode → Char → Option (List Token × Mode)
  | .between, c => some (startToken c)
  | .word seen, c =>
    if continuesWord c then some ([], .word (c :: seen))
    else (word? seen.reverse).map fun t =>
      let (ts, mode) := startToken c
      (t :: ts, mode)
  | .string seen, c =>
    if c == '"' then some ([.str (String.ofList seen.reverse)], .between)
    else if c == '\\' then some ([], .escape seen)
    else if c.toNat < 0x20 then none
    else some ([], .string (c :: seen))
  | .escape seen, c =>
    if c == 'u' then some ([], .unit seen none 0 0)
    else (escaped? c).map fun d => ([], .string (d :: seen))
  | .unit seen waiting digits value, c =>
    (Text.hexDigit? c).bind fun d =>
      if digits = 3 then (afterUnit seen waiting (16 * value + d)).map fun m => ([], m)
      else some ([], .unit seen waiting (digits + 1) (16 * value + d))
  | .half seen first, c => if c == '\\' then some ([], .halfEscape seen first) else none
  | .halfEscape seen first, c => if c == 'u' then some ([], .unit seen (some first) 0 0) else none

/-- The tokens of a text that goes on in some mode. -/
def tokensFrom : Mode → List Char → Option (List Token)
  | .between, [] => some []
  | .word seen, [] => (word? seen.reverse).map fun t => [t]
  | _, [] => none
  | mode, c :: rest =>
    (stepToken mode c).bind fun (ts, mode) => (tokensFrom mode rest).map (ts ++ ·)

/-- The tokens of a JSON text. -/
def tokens? (cs : List Char) : Option (List Token) :=
  tokensFrom .between cs

end BibAudit.Json
