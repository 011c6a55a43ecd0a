/-
# BibAudit.Toml.Scalar — numbers, booleans, dates and times of TOML.

A value without quotes or brackets is one run of characters.  Integers come in four bases, with
underscores between digits; they must fit 128 bits, signed or not.  Fractions must not exceed what
64 bits can hold.  Dates must exist, and seconds may be left out.
-/
import BibAudit.Timestamp
import BibAudit.Toml.Quoted
import BibAudit.Toml.Value

namespace BibAudit.Toml

/-! ## Digits -/

/-- Digits with single underscores between them, without the underscores. -/
def separated? (isDigit : Char → Bool) : List Char → Option (List Char)
  | [] => none
  | [c] => if isDigit c then some [c] else none
  | c :: '_' :: rest =>
    if isDigit c then (separated? isDigit rest).map (c :: ·) else none
  | c :: rest => if isDigit c then (separated? isDigit rest).map (c :: ·) else none

/-- The value of digits in a base. -/
def valueIn (base : Nat) (ds : List Char) : Nat :=
  ds.foldl (fun n c => base * n + (Text.hexDigit? c).getD 0) 0

/-- A sign and what follows it. -/
def splitSign : List Char → Bool × List Char
  | '+' :: rest => (false, rest)
  | '-' :: rest => (true, rest)
  | cs => (false, cs)

/-- Decimal digits without a leading zero, unless it stands alone. -/
def decimal? (cs : List Char) : Option (List Char) :=
  (separated? Char.isDigit cs).filter fun ds => ds.head? != some '0' || ds.length == 1

/-! ## Integers -/

/-- The least signed and the greatest unsigned integer of 128 bits bound an integer. -/
def bounded? (n : Int) : Option Value :=
  if -(Nat.pow 2 127 : Int) ≤ n && n < (Nat.pow 2 128 : Int) then some (.integer n) else none

/-- Digits of a base other than ten, after a zero and a letter. -/
def based? (base : Nat) (isDigit : Char → Bool) (cs : List Char) : Option Value :=
  (separated? isDigit cs).bind fun ds => bounded? (valueIn base ds)

/-- An integer. -/
def integer? : List Char → Option Value
  | '0' :: 'x' :: rest => based? 16 (fun c => (Text.hexDigit? c).isSome) rest
  | '0' :: 'o' :: rest => based? 8 (fun c => '0' ≤ c && c ≤ '7') rest
  | '0' :: 'b' :: rest => based? 2 (fun c => c == '0' || c == '1') rest
  | cs =>
    let (negative, cs) := splitSign cs
    (decimal? cs).bind fun ds =>
      let n : Int := valueIn 10 ds
      bounded? (if negative then -n else n)

/-! ## Fractions -/

/-- Digits times ten to the power of an exponent are less than the numbers that round to infinity. -/
def isFinite (digits : List Char) (exponent : Int) : Bool :=
  let ds := digits.dropWhile (· == '0')
  let magnitude : Int := ds.length + exponent
  if ds.isEmpty || magnitude < 300 then true
  else if 400 < magnitude then false
  else
    let n := valueIn 10 ds
    let bound := Nat.pow 2 1024 - Nat.pow 2 970
    if 0 ≤ exponent then n * Nat.pow 10 exponent.toNat < bound
    else n < bound * Nat.pow 10 (-exponent).toNat

/-- The exponent after the letter, as a number; none if there is no letter. -/
def exponent? : List Char → Option Int
  | [] => some 0
  | e :: rest =>
    if e == 'e' || e == 'E' then
      let (negative, ds) := splitSign rest
      (separated? Char.isDigit ds).map fun ds =>
        let n : Int := valueIn 10 ds
        if negative then -n else n
    else none

/-- A number with a fraction, an exponent or both. -/
def float? (cs : List Char) : Option Value :=
  let (_, cs) := splitSign cs
  if cs == "inf".toList || cs == "nan".toList then some .float
  else
    let isPart (c : Char) : Bool := c.isDigit || c == '_'
    let whole := cs.takeWhile isPart
    let rest := cs.dropWhile isPart
    let split : Option (List Char × List Char) :=
      match rest with
      | '.' :: rest =>
        (separated? Char.isDigit (rest.takeWhile isPart)).map fun ds => (ds, rest.dropWhile isPart)
      | [] => none
      | rest => some ([], rest)
    (decimal? whole).bind fun whole =>
      split.bind fun (fraction, rest) =>
        (exponent? rest).bind fun exponent =>
          if isFinite (whole ++ fraction) (exponent - fraction.length) then some .float else none

/-! ## Dates and times -/

/-- A date, and what is left after it. -/
def date? (cs : List Char) : Option (List Char) := do
  let (year, cs) ← Timestamp.digits 4 cs
  let cs ← Timestamp.after '-' cs
  let (month, cs) ← Timestamp.digits 2 cs
  let cs ← Timestamp.after '-' cs
  let (day, cs) ← Timestamp.digits 2 cs
  if Timestamp.isDate year month day then some cs else none

/-- Seconds with or without a fraction, after their colon, and what is left. -/
def seconds? (cs : List Char) : Option (List Char) := do
  let (second, cs) ← Timestamp.digits 2 cs
  if 60 < second then none
  else match cs with
    | '.' :: c :: rest => if c.isDigit then some (rest.dropWhile Char.isDigit) else none
    | cs => some cs

/-- A time of day, and what is left after it. -/
def time? (cs : List Char) : Option (List Char) := do
  let (hour, cs) ← Timestamp.digits 2 cs
  let cs ← Timestamp.after ':' cs
  let (minute, cs) ← Timestamp.digits 2 cs
  if 23 < hour || 59 < minute then none
  else match cs with
    | ':' :: rest => seconds? rest
    | cs => some cs

/-- A date, a time, or both with or without a distance from UTC. -/
def moment? (cs : List Char) : Option Value :=
  match date? cs with
  | some [] => some .moment
  | some (c :: rest) =>
    if c == 'T' || c == 't' || c == ' ' then
      match time? rest with
      | some [] => some .moment
      | some offset => (Timestamp.readOffset offset).map fun _ => .moment
      | none => none
    else none
  | none => if time? cs = some [] then some .moment else none

/-- A whole date and nothing else, which a time may follow after a space. -/
def isDateOnly (cs : List Char) : Bool :=
  date? cs == some []

/-- The value of a run of characters. -/
def scalar? (cs : List Char) : Option Value :=
  if cs == "true".toList then some (.boolean true)
  else if cs == "false".toList then some (.boolean false)
  else ((integer? cs).or (moment? cs)).or (float? cs)

end BibAudit.Toml
