/-
# BibAudit.Selection — choosing checks.

An expression is a list of tokens between colons, read from left to right against a set that starts
empty: `name` and `+name` add, `-name` takes away.  A name is that of a check or of a group, in
either case.
-/
import BibAudit.Catalog
import BibAudit.Text.Basic
import BibAudit.Text.Case

namespace BibAudit

/-- A set of checks. -/
abbrev CheckSet := Check → Bool

namespace CheckSet

/-- No check at all. -/
def empty : CheckSet := fun _ => false

/-- The set with some checks added. -/
def add (s : CheckSet) (cs : List Check) : CheckSet :=
  fun c => s c || cs.contains c

/-- The set with some checks taken away. -/
def remove (s : CheckSet) (cs : List Check) : CheckSet :=
  fun c => s c && !cs.contains c

/-- The members, in the order of the catalog. -/
def toList (s : CheckSet) : List Check :=
  Check.all.filter s

/-- The names of the members, in code point order. -/
def names (s : CheckSet) : List String :=
  (s.toList.map Check.name).mergeSort fun a b => (compare a b).isLE

end CheckSet

namespace Selection

/-- The selection when none is given. -/
def default : String := "DEFAULT"

/-- Why an expression selects nothing. -/
inductive SelectionError
  | unknownCheck (name expression : String)
  | missingName (expression : String)
deriving DecidableEq, Repr

/-- The wording of a selection error. -/
def SelectionError.message : SelectionError → String
  | .unknownCheck name expression =>
    s!"unknown check '{name}' in selection '{expression}'; run `biblint list-checks` to see " ++
      "available checks"
  | .missingName expression =>
    s!"selection '{expression}' has an operator without a check name"

/-- The checks that a name in small letters stands for. -/
def named? (name : String) : Option (List Check) :=
  if name == "all" then some Check.all
  else if name == "default" then some (Check.all.filter Check.byDefault)
  else if name == "bib" then some (Check.all.filter fun c => c.domain == .bib)
  else if name == "tex" then some (Check.all.filter fun c => c.domain == .tex)
  else (Check.ofName? name).map fun c => [c]

/-- One token: whether it adds, and the name in it. -/
structure Mention where
  adds : Bool
  name : List Char
deriving DecidableEq, Repr

/-- Read a token that is trimmed and not empty. -/
def Mention.ofToken : List Char → Mention
  | '+' :: rest => ⟨true, Text.trim rest⟩
  | '-' :: rest => ⟨false, Text.trim rest⟩
  | token => ⟨true, token⟩

/-- The mentions of an expression, in order. -/
def mentions (expression : String) : List Mention :=
  (((Text.splitWhere (· == ':') expression.toList).map Text.trim).filter
    fun token => !token.isEmpty).map Mention.ofToken

/-- The checks that a mention is about. -/
def Mention.checks (expression : String) (m : Mention) : Except SelectionError (List Check) :=
  if m.name.isEmpty then .error (.missingName expression)
  else
    let name := String.ofList m.name
    match named? (Text.lowerAscii name) with
    | some checks => .ok checks
    | none => .error (.unknownCheck name expression)

/-- Apply mentions to a set, one after the other. -/
def apply (expression : String) : CheckSet → List Mention → Except SelectionError CheckSet
  | s, [] => .ok s
  | s, m :: rest =>
    match m.checks expression with
    | .error e => .error e
    | .ok checks => apply expression (if m.adds then s.add checks else s.remove checks) rest

/-- The checks that an expression selects. -/
def parse (expression : String) : Except SelectionError CheckSet :=
  apply expression CheckSet.empty (mentions expression)

end Selection

end BibAudit
