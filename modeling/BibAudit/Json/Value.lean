/-
# BibAudit.Json.Value — JSON values.

A number is kept as an integer if it is written as one, and by its text otherwise: nothing here
computes with fractions.  The members of an object keep their order; if a name occurs twice, the
last one counts.
-/
namespace BibAudit

/-- A JSON value. -/
inductive Json
  | null
  | bool (b : Bool)
  | int (n : Int)
  /-- A number with a fraction or an exponent, or a negative zero, as written. -/
  | real (text : String)
  | str (s : String)
  | arr (items : List Json)
  | obj (members : List (String × Json))
deriving Repr, Inhabited

namespace Json

/-- The member of a name. -/
def get? (name : String) : Json → Option Json
  | obj members => members.reverse.lookup name
  | _ => none

/-- A natural number, as an integer. -/
def nat (n : Nat) : Json := .int n

end Json

end BibAudit
