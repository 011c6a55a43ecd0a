/-
# BibAudit.Checks.Link — identifiers, links and copies of a work.

An entry should carry a persistent identifier and link its resolver.  Documents of the RFC series
have a DOI of a fixed form.  Where something is missing, the complaint tells where to search for the
title.
-/
import BibAudit.Checks.Title
import BibAudit.Identifier

namespace BibAudit.Checks

/-- A link that does not lead to the identifier of its entry. -/
def uniformDoiUrl (e : Entry) (_ : Context) : Findings :=
  match Identifier.checkUrl (e.text? "doi") (e.text? "urn") e.key (e.text? "url") with
  | none => .ok []
  | some (.missing expected) => .ok [e.complain .uniformDoiUrl
      s!"No URL present, expected {commaList (expected.map inQuotes)}"]
  | some (.mismatch actual expected) =>
    let listed := commaList (expected.map inQuotes)
    .ok [e.complainAt .uniformDoiUrl "url"
      s!"URL \"{actual}\" does not point to identifier, expected {listed}"]

/-! ## Missing identifiers -/

/-- A publisher with a search page: a name to look for, and the link around the search terms. -/
structure Publisher where
  name : String
  before : String
  after : String

/-- Publishers in the order in which they are looked for. -/
def publishers : List Publisher :=
  [⟨"ieee", "http://ieeexplore.ieee.org/search/searchresult.jsp?newsearch=true&queryText=", ""⟩,
    ⟨"springer", "http://link.springer.com/search?query=", ""⟩,
    ⟨"acm", "http://dl.acm.org/results.cfm?query=", "&Go.x=0&Go.y=0"⟩,
    ⟨"elsevier", "https://www.elsevier.com/search-results?query=", "&labels=all"⟩]

/-- The fields that may name a publisher, in small letters. -/
def organizations (e : Entry) : List Char :=
  let values := ["journal", "organization", "publisher", "booktitle"].filterMap e.text?
  Text.lower (" ".intercalate values).toList

/-- The first publisher that an entry names. -/
def publisher? (e : Entry) : Option Publisher :=
  publishers.find? fun p => Text.occursIn p.name.toList (organizations e)

/-- A link field of the entry speaks of a DOI. -/
def hidesDoi (e : Entry) : Bool :=
  ["ee", "url"].any fun f =>
    (e.field? f).any fun v => Text.occursIn "doi".toList (v.toList.map Char.toLower)

/-- An entry with neither identifier. -/
def missingDoi (e : Entry) (_ : Context) : Findings :=
  if e.hasField "doi" || e.hasField "urn" then .ok []
  else
    let hint := if hidesDoi e then ", but a DOI appears in the ee or url field" else ""
    let advice := match publisher? e with
      | none => ""
      | some p => searchAdvice e p.before p.after
    .ok [e.complain .missingDoi s!"Entry has neither DOI nor URN{hint}{advice}"]

/-- A document of the RFC series without the DOI of that series. -/
def rfcDois (e : Entry) (_ : Context) : Findings :=
  match Identifier.rfcNumber? e.key with
  | none => .ok []
  | some number =>
    let expected := Identifier.rfcDoi number
    match e.text? "doi" with
    | none => .ok [e.complain .rfcDois
        s!"RFC entry has no DOI, expected doi = \x7b{expected}\x7d"]
    | some doi =>
      if Text.lowerAscii doi == Text.lowerAscii expected then .ok []
      else .ok [e.complainAt .rfcDois "doi"
        s!"RFC DOI \"{doi}\" does not follow RFC 7669, expected {expected}"]

/-! ## Local copies -/

/-- An entry without a local copy. -/
def localCopies (e : Entry) (ctx : Context) : Findings :=
  match ctx.probe with
  | none => .error (.missingInput "local copy directory")
  | some probe =>
    match probe e.key with
    | .error err => .error err
    | .ok true => .ok []
    | .ok false =>
      let advice := searchAdvice e "https://scholar.google.com/scholar?q=" ""
      .ok [e.complain .localCopies s!"Missing local copy{advice}"]

end BibAudit.Checks
