/-
# BibAudit.Checks.Table — what each check does.

The table gives every check of the catalog its body.  A body runs on entries, on the whole
bibliography, or on windows of words, as the catalog says.
-/
import BibAudit.Checks.Author
import BibAudit.Checks.Keys
import BibAudit.Checks.Link
import BibAudit.Checks.Prose
import BibAudit.Checks.Publication

namespace BibAudit

/-- What a check does. -/
inductive CheckBody
  | entry (run : Entry → Context → Findings)
  | collection (run : Context → Findings)
  /-- The memory starts empty in every document. -/
  | window (run : Checks.Memory → Document → List Word → Findings × Checks.Memory)

/-- A window check that remembers nothing and never fails. -/
def CheckBody.ofPairs (run : Document → List Word → List Complaint) : CheckBody :=
  .window fun m d window => (.ok (run d window), m)

/-- The body of a check. -/
def Check.body : Check → CheckBody
  | duplicateEntries => .collection Checks.duplicateEntries
  | misformattedMonth => .entry Checks.misformattedMonth
  | illegalChars => .entry Checks.illegalChars
  | unquotedAbbreviations => .entry Checks.unquotedAbbreviations
  | unquotedNames => .entry Checks.unquotedNames
  | overquotedTitle => .entry Checks.overquotedTitle
  | isbn => .entry Checks.isbn
  | uniformDoiUrl => .entry Checks.uniformDoiUrl
  | missingDoi => .entry Checks.missingDoi
  | rfcDois => .entry Checks.rfcDois
  | identicalTitles => .collection Checks.identicalTitles
  | presentFields => .entry Checks.presentFields
  | nameConsistency => .entry Checks.nameConsistency
  | fullFirstNames => .entry Checks.fullFirstNames
  | localCopies => .entry Checks.localCopies
  | uncitedCitations => .collection Checks.uncitedCitations
  | undefinedCitations => .collection Checks.undefinedCitations
  | numberWordHyphen => .ofPairs Checks.numberWordHyphen
  | separatedWords => .ofPairs Checks.separatedWords
  | repeatedWords => .window fun m d window =>
    let (complaints, m) := Checks.repeatedWords m d window
    (.ok complaints, m)

end BibAudit
