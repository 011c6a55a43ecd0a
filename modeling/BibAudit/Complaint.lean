/-
# BibAudit.Complaint — one finding, and the order of findings.

A complaint names the check that made it, the line it is about, the citation key of the entry
concerned if there is one, and further lines it refers to.  The order looks at the location first,
then at the check and the message; key and related lines only break what ties remain, so that a
sorted list does not depend on the order in which checks ran.
-/
import BibAudit.Location

namespace BibAudit

/-- One finding. -/
structure Complaint where
  location : Location
  key : Option String
  check : String
  message : String
  related : List Location
deriving DecidableEq, Repr, Inhabited

namespace Complaint

/-- A finding about a line, with no key and nothing related. -/
def raise (check : String) (location : Location) (message : String) : Complaint :=
  ⟨location, none, check, message, []⟩

/-- The finding, about the entry with this key. -/
def about (c : Complaint) (key : String) : Complaint :=
  { c with key := some key }

/-- The finding, referring to further lines. -/
def referringTo (c : Complaint) (related : List Location) : Complaint :=
  { c with related := related }

/-- Location, then check, then message; key and related lines break remaining ties. -/
def order : Complaint → Complaint → Ordering :=
  compareLex (compareOn (·.location)) <|
  compareLex (compareOn (·.check)) <|
  compareLex (compareOn (·.message)) <|
  compareLex (compareOn (·.key)) (compareOn (·.related))

/-- Complaints in their order. -/
def sort (cs : List Complaint) : List Complaint :=
  cs.mergeSort fun a b => (order a b).isLE

/-- The check name of complaints made while reading a bibliography. -/
def parseError : String := "parse-error"

/-- The check name of complaints about a check that failed. -/
def internalError : String := "internal-check-error"

end Complaint

end BibAudit
