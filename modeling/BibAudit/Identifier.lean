/-
# BibAudit.Identifier — persistent identifiers and their links.

A DOI or a URN has a resolver, and an entry that carries one is expected to link there.  Documents
of the RFC series, known by their citation key, link their text instead, and have a DOI of their own
form.
-/
import BibAudit.Text.Basic

namespace BibAudit.Identifier

/-- Where DOIs are resolved. -/
def doiResolver : String := "https://dx.doi.org/"

/-- Where URNs are resolved. -/
def urnResolver : String := "https://nbn-resolving.org/"

/-! ## The RFC series -/

/-- The number in a key made of `rfc`, in either case, and digits; none if it exceeds 32 bits. -/
def rfcNumber? (key : String) : Option Nat :=
  match key.toList with
  | r :: f :: c :: digits =>
    if [r, f, c].map Char.toLower == ['r', 'f', 'c'] && Text.isNumeral digits &&
        Text.decimalValue digits < Text.countLimit then
      some (Text.decimalValue digits)
    else none
  | _ => none

/-- The text of a document of the series. -/
def rfcUrl (number : Nat) : String :=
  s!"https://tools.ietf.org/rfc/rfc{number}.txt"

/-- The DOI of a document of the series. -/
def rfcDoi (number : Nat) : String :=
  s!"10.17487/rfc{number}"

/-! ## Links -/

/-- An identifier without blanks around it; none if nothing is left. -/
def usable? (id : Option String) : Option String :=
  (id.map Text.trimString).filter (!·.isEmpty)

/-- The links that an entry may carry, the preferred one first. -/
def expectedUrls (doi urn : Option String) (key : String) : List String :=
  let ofDoi := (usable? doi).toList.map fun doi =>
    match rfcNumber? key with
    | some n => rfcUrl n
    | none => doiResolver ++ doi
  let ofUrn := (usable? urn).toList.map fun urn => urnResolver ++ urn
  ofDoi ++ ofUrn

/-- What is wrong with the link of an entry. -/
inductive UrlFinding
  /-- It leads elsewhere. -/
  | mismatch (actual : String) (expected : List String)
  /-- There is none. -/
  | missing (expected : List String)
deriving DecidableEq, Repr

/-- Compare a link with the ones that are expected; nothing is expected without an identifier. -/
def checkUrl (doi urn : Option String) (key : String) (url : Option String) :
    Option UrlFinding :=
  let expected := expectedUrls doi urn key
  if expected.isEmpty then none
  else match url.map Text.trimString with
    | none => some (.missing expected)
    | some actual =>
      if expected.contains actual then none else some (.mismatch actual expected)

end BibAudit.Identifier
