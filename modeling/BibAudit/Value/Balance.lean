/-
# BibAudit.Value.Balance — counting braces across a backslash.

Two counters treat a backslash as hiding whatever character follows it: the balance of a line,
which tells how many braces it leaves open, and the search for the brace that closes the first one.
-/
namespace BibAudit.Value

/-- Opening less closing braces, not counting a character right after a backslash. -/
def balance : List Char → Int
  | [] => 0
  | ['\\'] => 0
  | '\\' :: _ :: rest => balance rest
  | '{' :: rest => balance rest + 1
  | '}' :: rest => balance rest - 1
  | _ :: rest => balance rest

/-- Both counters have a rule for a backslash at the end of a text and one for a backslash with a
character behind it; what neither rule applies to is no backslash. -/
theorem ne_backslash {c : Char} {rest : List Char} (hlone : c = '\\' → rest = [] → False)
    (hpair : ∀ d more, c = '\\' → rest = d :: more → False) : c ≠ '\\' := by
  rintro rfl
  cases rest with
  | nil => exact hlone rfl rfl
  | cons d more => exact hpair d more rfl rfl

/-- With `depth` braces open, the index of the brace that closes the last of them.  A closing brace
with nothing open ends the search. -/
def closingFrom : Nat → List Char → Option Nat
  | _, [] => none
  | _, ['\\'] => none
  | depth, '\\' :: _ :: rest => (closingFrom depth rest).map (· + 2)
  | depth, '{' :: rest => (closingFrom (depth + 1) rest).map (· + 1)
  | 0, '}' :: _ => none
  | 1, '}' :: _ => some 0
  | depth + 2, '}' :: rest => (closingFrom (depth + 1) rest).map (· + 1)
  | depth, _ :: rest => (closingFrom depth rest).map (· + 1)

/-- The index of the brace that closes the first opening brace of a text. -/
def closing? (cs : List Char) : Option Nat :=
  closingFrom 0 cs

end BibAudit.Value
