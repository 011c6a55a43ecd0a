/-
# BibAudit.Toml.Value — TOML values and how tables come to be.

A table is written by a header, implied by the header of a table inside it, made by a dotted key, or
written inline.  How it came to be decides what may still be added to it: a table has one header, an
inline table is complete, and dotted keys only extend tables that they made or that are implied.  An
implied table that a dotted key names on its way counts as made by it and gets no header.
-/
namespace BibAudit.Toml

/-- How a table came to be. -/
inductive Origin
  | header
  | implied
  | dotted
  | inline
deriving DecidableEq, Repr

/-- A TOML value.  Dates, times and fractions are only known to be there. -/
inductive Value
  | string (s : String)
  | boolean (b : Bool)
  | integer (n : Int)
  | float
  | moment
  | array (items : List Value)
  | table (origin : Origin) (members : List (String × Value))
  /-- An array of tables under headers, the last one first. -/
  | tables (reversed : List (List (String × Value)))
deriving Repr, Inhabited

/-- The members of a table, in order of definition. -/
abbrev Members := List (String × Value)

/-- The members with another value for a key that is there. -/
def replace (key : String) (v : Value) : Members → Members
  | [] => []
  | (other, old) :: rest =>
    if other == key then (key, v) :: rest else (other, old) :: replace key v rest

/-- The members with one more, unless the key is taken. -/
def insertNew (key : String) (v : Value) (ms : Members) : Option Members :=
  if (ms.lookup key).isSome then none else some (ms ++ [(key, v)])

/-- Change the table at a path, making the tables on the way.  The change sees how its table came to
be.  The path is one of a dotted key or of a header; an implied table on a dotted path counts as made
by dotted keys from then on, whether the path ends there or goes on. -/
def changeAt (isDotted : Bool) (change : Origin → Members → Option Members) :
    List String → Origin → Members → Option Members
  | [], origin, ms => change origin ms
  | key :: path, _, ms =>
    match ms.lookup key with
    | none =>
      let origin := if isDotted then Origin.dotted else Origin.implied
      (changeAt isDotted change path origin []).bind fun inner =>
        insertNew key (.table origin inner) ms
    | some (.table origin inner) =>
      if origin = .inline || (isDotted && origin = .header) then none
      else
        let origin := if isDotted then Origin.dotted else origin
        (changeAt isDotted change path origin inner).map fun inner =>
          replace key (.table origin inner) ms
    | some (.tables (last :: earlier)) =>
      (changeAt isDotted change path .header last).map fun last =>
        replace key (.tables (last :: earlier)) ms
    | some _ => none

/-- Define the key at the end of a path.  A key with a path goes to a table of dotted keys, which the
last of an array of tables is not; a key of one part goes to the table that is being written. -/
def define (path : List String) (key : String) (v : Value) (origin : Origin) (ms : Members) :
    Option Members :=
  changeAt true (fun origin ms =>
    if path.isEmpty || origin = .dotted then insertNew key v ms else none) path origin ms

/-- Open the table of a header. -/
def openTable (path : List String) (key : String) (root : Members) : Option Members :=
  changeAt false (fun _ ms =>
    match ms.lookup key with
    | none => insertNew key (.table .header []) ms
    | some (.table .implied inner) => some (replace key (.table .header inner) ms)
    | some _ => none) path .header root

/-- Open one more table in an array of tables. -/
def openTables (path : List String) (key : String) (root : Members) : Option Members :=
  changeAt false (fun _ ms =>
    match ms.lookup key with
    | none => insertNew key (.tables [[]]) ms
    | some (.tables earlier) => some (replace key (.tables ([] :: earlier)) ms)
    | some _ => none) path .header root

end BibAudit.Toml
