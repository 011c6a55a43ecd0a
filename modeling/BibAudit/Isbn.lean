/-
# BibAudit.Isbn — book numbers.

A book number has ten or thirteen characters once hyphens and spaces are left out: digits, and in
the last place of the short form also an X for ten.  Weights decide the check digit; the hyphens
must stand between groups of fixed lengths.  A short number converts to a long one with the same
groups.
-/
import BibAudit.Groups
import BibAudit.Text.Basic

namespace BibAudit.Isbn

/-- The short form and the long form. -/
inductive Kind
  | isbn10
  | isbn13
deriving DecidableEq, Repr

namespace Kind

/-- The usual name of a form. -/
def name : Kind → String
  | isbn10 => "ISBN-10"
  | isbn13 => "ISBN-13"

/-- The lengths of the groups between hyphens. -/
def groups : Kind → List Nat
  | isbn10 => [1, 3, 5, 1]
  | isbn13 => [3, 1, 3, 5, 1]

/-- The groups, drawn with an `n` for a digit. -/
def pattern : Kind → String
  | isbn10 => "n-nnn-nnnnn-n"
  | isbn13 => "nnn-n-nnn-nnnnn-n"

/-- The form of a number of this many characters. -/
def ofLength? : Nat → Option Kind
  | 10 => some isbn10
  | 13 => some isbn13
  | _ => none

end Kind

/-- What can be wrong with a number. -/
inductive Problem
  /-- These characters do not belong there. -/
  | badCharacter (listed : String)
  | wrongLength (length : Nat)
  | badChecksum (kind : Kind)
  | badFormat (kind : Kind)
deriving DecidableEq, Repr

/-- The wording of a problem. -/
def Problem.message : Problem → String
  | .badCharacter listed => s!"ISBN contains invalid character(s): {listed}"
  | .wrongLength length => s!"ISBN has {length} characters, expected 10 or 13"
  | .badChecksum kind => s!"{kind.name} checksum is wrong"
  | .badFormat kind => s!"{kind.name} format is wrong, expected {kind.pattern}"

/-! ## Digits and weights -/

/-- The characters that count: no blanks around, no hyphens or spaces inside. -/
def compact (cs : List Char) : List Char :=
  (Text.trim cs).filter fun c => !(c == '-' || c == ' ')

/-- The form that the length of a number calls for. -/
def kindOf? (cs : List Char) : Option Kind :=
  Kind.ofLength? (compact cs).length

/-- The value of the last character of a short number, where X stands for ten. -/
def lastDigit? (c : Char) : Option Nat :=
  if c == 'X' || c == 'x' then some 10 else Text.decimalDigit? c

/-- The values of the characters of a short number. -/
def values10? : List Char → Option (List Nat)
  | [] => none
  | [c] => (lastDigit? c).map fun d => [d]
  | c :: rest => do
    let d ← Text.decimalDigit? c
    let ds ← values10? rest
    return d :: ds

/-- The sum of the values, each times its distance from the end, the last counting once. -/
def weight10 : List Nat → Nat
  | [] => 0
  | d :: rest => d * (rest.length + 1) + weight10 rest

/-- The sum of the values, times one and three by turns. -/
def weight13 : List Nat → Nat
  | [] => 0
  | [d] => d
  | d :: e :: rest => d + 3 * e + weight13 rest

/-- The check digit fits, hyphens aside. -/
def checksumValid (cs : List Char) : Bool :=
  let cs := compact cs
  match Kind.ofLength? cs.length with
  | none => false
  | some .isbn10 => (values10? cs).any fun ds => weight10 ds % 11 == 0
  | some .isbn13 => (cs.mapM Text.decimalDigit?).any fun ds => weight13 ds % 10 == 0

/-! ## Groups -/

/-- The lengths of the groups between hyphens. -/
def groupLengths (cs : List Char) : List Nat :=
  (Text.splitWhere (· == '-') (Text.trim cs)).map List.length

/-- The groups have the lengths that the form prescribes. -/
def formatValid (cs : List Char) (kind : Kind) : Bool :=
  groupLengths cs == kind.groups

/-! ## Validation -/

/-- The characters that do not belong into a number of this form. -/
def badCharacters (kind : Option Kind) : List Char → List Char
  | [] => []
  | [c] =>
    if c.isDigit || (kind == some .isbn10 && (c == 'X' || c == 'x')) then [] else [c]
  | c :: rest =>
    if c.isDigit then badCharacters kind rest else c :: badCharacters kind rest

/-- Everything that is wrong with a number. -/
def validate (cs : List Char) : List Problem :=
  let digits := compact cs
  let kind? := Kind.ofLength? digits.length
  let bad := distinctChars (badCharacters kind? digits)
  let characters := if bad.isEmpty then [] else [Problem.badCharacter (String.ofList bad)]
  match kind? with
  | none => characters ++ [.wrongLength digits.length]
  | some kind =>
    let checksum := if bad.isEmpty && !checksumValid cs then [Problem.badChecksum kind] else []
    let format := if formatValid cs kind then [] else [Problem.badFormat kind]
    characters ++ checksum ++ format

/-! ## Conversion -/

/-- Why a number has no long form. -/
inductive ConversionError
  | notIsbn10 (text : String)
  | invalid (problem : Problem)
deriving DecidableEq, Repr

/-- The wording of a failed conversion. -/
def ConversionError.message : ConversionError → String
  | .notIsbn10 text => s!"not an ISBN-10: {text}"
  | .invalid problem => problem.message

/-- The problem is one of grouping only. -/
def Problem.isFormat : Problem → Bool
  | .badFormat _ => true
  | _ => false

/-- The digit that completes a long number. -/
def checkDigit13 (leading : List Nat) : Nat :=
  (10 - weight13 leading % 10) % 10

/-- The long form of a valid short number: 978 in front, the groups as they are, and a new check
digit. -/
def longForm (cs : List Char) : List Char :=
  let hyphenated := Text.dropEndWhile (· == '-') (cs.map fun c => if c == ' ' then '-' else c)
  let body := hyphenated.dropLast
  let separated := body.getLast? == some '-'
  let body := if separated then body.dropLast else body
  let check := checkDigit13 ([9, 7, 8] ++ body.filterMap Text.decimalDigit?)
  ['9', '7', '8'] ++ (if hyphenated.contains '-' then ['-'] else []) ++ body ++
    (if separated then ['-'] else []) ++ [Nat.digitChar check]

/-- Convert a short number; grouping does not have to be right. -/
def toIsbn13 (cs : List Char) : Except ConversionError String :=
  let cs := Text.trim cs
  if kindOf? cs = some .isbn10 then
    match (validate cs).find? (!·.isFormat) with
    | some problem => .error (.invalid problem)
    | none => .ok (String.ofList (longForm cs))
  else .error (.notIsbn10 (String.ofList cs))

end BibAudit.Isbn
