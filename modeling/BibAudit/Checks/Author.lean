/-
# BibAudit.Checks.Author — first names of authors.

Within one entry, first names are either all spelled out or all abbreviated.  The stricter check
wants them spelled out; documents of the RFC series are exempt from it.
-/
import BibAudit.Checks.Context
import BibAudit.Identifier
import BibAudit.PersonName

namespace BibAudit.Checks

/-- The persons in the author field. -/
def authors (e : Entry) : List PersonName :=
  (e.field? "author").toList.flatMap PersonName.parseList

/-- Some first names abbreviated, and some not. -/
def nameConsistency (e : Entry) (_ : Context) : Findings :=
  let names := authors e
  let abbreviated := (names.filter PersonName.isAbbreviated).length
  if 0 < abbreviated && abbreviated < names.length then
    .ok [e.complainAt .nameConsistency "author"
      (s!"Inconsistent abbreviation of first names: {abbreviated} of {names.length} " ++
        "authors abbreviated")]
  else .ok []

/-- Abbreviated first names. -/
def fullFirstNames (e : Entry) (_ : Context) : Findings :=
  if (Identifier.rfcNumber? e.key).isSome then .ok []
  else
    let abbreviated := (authors e).filter PersonName.isAbbreviated
    if abbreviated.isEmpty then .ok []
    else
      let listed := commaList (abbreviated.map fun n => s!"{n.first} {n.last}")
      .ok [e.complainAt .fullFirstNames "author" s!"Abbreviated first names: {listed}"]

end BibAudit.Checks
