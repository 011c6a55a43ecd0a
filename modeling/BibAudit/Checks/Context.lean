/-
# BibAudit.Checks.Context — what a check sees, and what it gives back.

A check sees its own unit and the context of the run: the whole bibliography, the citations if there
are documents, and a way to ask for local copies.  It gives complaints, or fails with a reason; a
failure says nothing about other units.
-/
import BibAudit.Bibliography
import BibAudit.Catalog
import BibAudit.Complaint
import BibAudit.Isbn

namespace BibAudit

/-- Why a check fails on a unit. -/
inductive CheckError
  /-- The run does not provide something that the check needs. -/
  | missingInput (what : String)
  /-- Asking for a local copy went wrong. -/
  | localCopy (key reason : String)
  | isbn (e : Isbn.ConversionError)
deriving DecidableEq, Repr

/-- The wording of a failure. -/
def CheckError.message : CheckError → String
  | .missingInput what => s!"{what} is not available for this run"
  | .localCopy key reason => s!"local copy lookup for '{key}' failed: {reason}"
  | .isbn e => s!"ISBN conversion failed: {e.message}"

/-- What a check gives back for one unit. -/
abbrev Findings := Except CheckError (List Complaint)

/-- Whether there is a local copy of the work with a key. -/
abbrev Probe := String → Except CheckError Bool

/-- What a check sees besides its own unit. -/
structure Context where
  bibliography : Bibliography
  /-- None if no documents were given. -/
  citations : Option Citations
  /-- None if no directory of local copies was given. -/
  probe : Option Probe
  onlyCited : Bool

namespace Context

/-- The entry is looked at: it is cited, or uncited entries are looked at too. -/
def inScope (ctx : Context) (e : Entry) : Bool :=
  match ctx.onlyCited, ctx.citations with
  | true, some citations => citations.contains e.key
  | _, _ => true

/-- The entries that are looked at. -/
def entries (ctx : Context) : List Entry :=
  ctx.bibliography.entries.filter ctx.inScope

end Context

/-- A complaint of a check about an entry, at its header. -/
def Entry.complain (e : Entry) (check : Check) (message : String) : Complaint :=
  (Complaint.raise check.name e.location message).about e.key

/-- A complaint of a check about a field of an entry. -/
def Entry.complainAt (e : Entry) (check : Check) (field message : String) : Complaint :=
  (Complaint.raise check.name (e.locationOf field) message).about e.key

/-- Strings between commas. -/
def commaList (items : List String) : String :=
  ", ".intercalate items

/-- A string between quotes. -/
def inQuotes (s : String) : String :=
  s!"\"{s}\""

end BibAudit
