/-
# BibAudit.Groups — values grouped under sorted names.

Groups keep, under each name, the values added with it in the order of arrival; the names stand in
code point order, each once.  Indexes of a bibliography, citations by key and entries by title are
all built this way, one value at a time.
-/
namespace BibAudit

/-- Values under names that stand in increasing order. -/
abbrev Groups (α : Type) := List (String × List α)

namespace Groups

variable {α : Type}

/-- The groups with one more value under a name. -/
def add (name : String) (value : α) : Groups α → Groups α
  | [] => [(name, [value])]
  | (other, values) :: rest =>
    match compare name other with
    | .lt => (name, [value]) :: (other, values) :: rest
    | .eq => (other, values ++ [value]) :: rest
    | .gt => (other, values) :: add name value rest

/-- The groups of some named values. -/
def ofList (items : List (String × α)) : Groups α :=
  items.foldl (fun groups item => groups.add item.1 item.2) []

/-- The values under a name; none were added under any other name. -/
def valuesOf (groups : Groups α) (name : String) : List α :=
  (groups.lookup name).getD []

/-- Something was added under this name. -/
def has (groups : Groups α) (name : String) : Bool :=
  (groups.lookup name).isSome

/-- The names, in order. -/
def names (groups : Groups α) : List String :=
  groups.map Prod.fst

/-- How many values there are under all names. -/
def total (groups : Groups α) : Nat :=
  groups.foldr (fun g n => g.2.length + n) 0

end Groups

/-! ## Sorted characters -/

/-- Put a character into its place among increasing ones, unless it is there already. -/
def insertChar (c : Char) : List Char → List Char
  | [] => [c]
  | d :: rest =>
    if c.toNat < d.toNat then c :: d :: rest
    else if c.toNat == d.toNat then d :: rest
    else d :: insertChar c rest

/-- The characters that occur, each once, in increasing order. -/
def distinctChars (cs : List Char) : List Char :=
  cs.foldr insertChar []

end BibAudit
