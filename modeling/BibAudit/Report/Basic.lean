/-
# BibAudit.Report.Basic — the report of a run.

A report holds the complaints of a run with its counts, the tool that made it, and when the run
began and ended.  The counts say what went into the run, what it did, and how many complaints came of
it; a list of complaints that was cut short says why.
-/
import BibAudit.Complaint
import BibAudit.Timestamp

namespace BibAudit

/-- The counts of a run. -/
structure Summary where
  bibliographiesParsed : Nat
  entriesParsed : Nat
  documentsScanned : Nat
  /-- Every place where a key is cited counts. -/
  citationsFound : Nat
  checksRun : Nat
  /-- Units that suppression directives took out. -/
  unitsSuppressed : Nat
  complaintsTotal : Nat
  complaintsEmitted : Nat
  truncatedReason : Option String
deriving DecidableEq, Repr, Inhabited

/-- The tool that made a report. -/
structure Tool where
  name : String
  version : String
deriving DecidableEq, Repr, Inhabited

/-- The report of a run. -/
structure Report where
  /-- Names the shape of the report. -/
  schema : String
  tool : Tool
  startedAt : Timestamp
  finishedAt : Timestamp
  summary : Summary
  complaints : List Complaint
deriving DecidableEq, Repr, Inhabited

namespace Report

/-- The shape of the reports that are made here. -/
def currentSchema : String := "biblint.report.v1"

/-- The tool that makes reports here. -/
def currentTool : Tool := ⟨"biblint", "0.1.0"⟩

/-- The exit code that a report calls for: zero if nothing was found, two otherwise. -/
def exitCode (r : Report) : Nat :=
  if r.complaints.isEmpty then 0 else 2

end Report

end BibAudit
