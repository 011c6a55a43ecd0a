/-
# BibAudit.Timestamp — points in time, as RFC 3339 writes them.

A timestamp is a local date and time with its distance from UTC in whole minutes.  The type holds
only what can be written: years of four digits, days that exist, and no more than nine digits of a
second.  A leap second is read where one can occur, and taken for the last moment before it.
-/
import BibAudit.Text.Basic

namespace BibAudit

namespace Timestamp

/-- Every fourth year, but of the centuries only every fourth. -/
def isLeapYear (year : Nat) : Bool :=
  year % 4 == 0 && (year % 100 != 0 || year % 400 == 0)

/-- The days of a month, which is counted from one. -/
def daysInMonth (year month : Nat) : Nat :=
  if month == 2 then (if isLeapYear year then 29 else 28)
  else if [4, 6, 9, 11].contains month then 30
  else 31

/-- The parts make up a date that exists. -/
def isDate (year month day : Nat) : Bool :=
  year ≤ 9999 && 1 ≤ month && month ≤ 12 && 1 ≤ day && day ≤ daysInMonth year month

/-- The parts make up a time of day. -/
def isTime (hour minute second nano : Nat) : Bool :=
  hour < 24 && minute < 60 && second < 60 && nano < 1000000000

/-- The distance from UTC is less than a day. -/
def isOffset (offset : Int) : Bool :=
  -1440 < offset && offset < 1440

end Timestamp

/-- A local date and time, and how many minutes it is ahead of UTC. -/
structure Timestamp where
  year : Nat
  month : Nat
  day : Nat
  hour : Nat
  minute : Nat
  second : Nat
  nano : Nat
  offset : Int
  date_valid : Timestamp.isDate year month day = true
  time_valid : Timestamp.isTime hour minute second nano = true
  offset_valid : Timestamp.isOffset offset = true
deriving DecidableEq, Repr

namespace Timestamp

/-- The first moment of 1970, UTC. -/
def epoch : Timestamp :=
  ⟨1970, 1, 1, 0, 0, 0, 0, 0, by decide, by decide, by decide⟩

instance : Inhabited Timestamp := ⟨epoch⟩

/-- The timestamp with these parts, if there is one. -/
def ofParts? (year month day hour minute second nano : Nat) (offset : Int) : Option Timestamp :=
  if h : isDate year month day ∧ isTime hour minute second nano ∧ isOffset offset then
    some ⟨year, month, day, hour, minute, second, nano, offset, h.1, h.2.1, h.2.2⟩
  else none

/-! ## Writing -/

/-- The last `width` decimal digits of a number. -/
def padded (width n : Nat) : List Char :=
  match width with
  | 0 => []
  | w + 1 => padded w (n / 10) ++ [Nat.digitChar (n % 10)]

/-- The fraction of a second: no zeros at its end, and nothing at all for a whole second. -/
def fraction (nano : Nat) : List Char :=
  if nano == 0 then [] else '.' :: Text.dropEndWhile (· == '0') (padded 9 nano)

/-- The distance from UTC, which is `Z` for none. -/
def offsetText (offset : Int) : List Char :=
  if offset == 0 then ['Z']
  else
    let minutes := offset.natAbs
    (if offset < 0 then '-' else '+') :: padded 2 (minutes / 60) ++ ':' :: padded 2 (minutes % 60)

/-- The written form. -/
def chars (t : Timestamp) : List Char :=
  padded 4 t.year ++ '-' :: padded 2 t.month ++ '-' :: padded 2 t.day ++ 'T' :: padded 2 t.hour ++
    ':' :: padded 2 t.minute ++ ':' :: padded 2 t.second ++ fraction t.nano ++ offsetText t.offset

/-- The written form, as a string. -/
def text (t : Timestamp) : String :=
  String.ofList t.chars

/-! ## Reading -/

/-- Exactly `width` digits onto a number, and what is left. -/
def digitsOnto (n : Nat) : Nat → List Char → Option (Nat × List Char)
  | 0, cs => some (n, cs)
  | _ + 1, [] => none
  | width + 1, c :: rest =>
    if c.isDigit then digitsOnto (10 * n + (c.toNat - '0'.toNat)) width rest else none

/-- Exactly `width` digits, and what is left. -/
def digits (width : Nat) (cs : List Char) : Option (Nat × List Char) :=
  digitsOnto 0 width cs

/-- What is left after a character that must stand there. -/
def after (c : Char) : List Char → Option (List Char)
  | d :: rest => if d == c then some rest else none
  | [] => none

/-- What is left after the one-byte character between date and time. -/
def afterSeparator : List Char → Option (List Char)
  | c :: rest => if c.toNat < 0x80 then some rest else none
  | [] => none

/-- Nine digits of a fraction, where zeros stand for missing ones; further digits do not count. -/
def nanosOf (ds : List Char) : Nat :=
  Text.decimalValue ((ds ++ List.replicate 9 '0').take 9)

/-- A fraction of a second, if there is one. -/
def readFraction : List Char → Option (Nat × List Char)
  | '.' :: rest =>
    let ds := rest.takeWhile Char.isDigit
    if ds.isEmpty then none else some (nanosOf ds, rest.dropWhile Char.isDigit)
  | cs => some (0, cs)

/-- The distance from UTC, with nothing after it. -/
def readOffset : List Char → Option Int
  | ['Z'] | ['z'] => some 0
  | sign :: rest => do
    let (hours, rest) ← digits 2 rest
    let rest ← after ':' rest
    let (minutes, rest) ← digits 2 rest
    let total : Int := hours * 60 + minutes
    if !rest.isEmpty || 23 < hours || 59 < minutes then none
    else if sign == '+' then some total
    else if sign == '-' then some (-total)
    else none
  | [] => none

/-- The minute that ends with a leap second: the last one of a month, in UTC. -/
def endsMonth (year month day hour minute : Nat) (offset : Int) : Bool :=
  let utc : Int := (hour * 60 + minute : Nat) - offset
  let lastDay := daysInMonth year month
  (utc == 1439 && day == lastDay) || (utc == 1439 + 1440 && day + 1 == lastDay) ||
    (utc == 1439 - 1440 && day == 1)

/-- Read a timestamp. -/
def read? (cs : List Char) : Option Timestamp := do
  let (year, cs) ← digits 4 cs
  let cs ← after '-' cs
  let (month, cs) ← digits 2 cs
  let cs ← after '-' cs
  let (day, cs) ← digits 2 cs
  let cs ← afterSeparator cs
  let (hour, cs) ← digits 2 cs
  let cs ← after ':' cs
  let (minute, cs) ← digits 2 cs
  let cs ← after ':' cs
  let (second, cs) ← digits 2 cs
  let (nano, cs) ← readFraction cs
  let offset ← readOffset cs
  if second = 60 then
    if endsMonth year month day hour minute offset then
      ofParts? year month day hour minute 59 999999999 offset
    else none
  else ofParts? year month day hour minute second nano offset

end Timestamp

end BibAudit
