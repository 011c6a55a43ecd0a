/-
# BibAudit.Lint — running the selected checks.

Every selected check runs on all units in its range: the entries in scope, the whole bibliography, or
the windows of every document.  A check that fails on a unit leaves a complaint about that and
nothing else.  An entry that suppresses a check is not looked at by it, and complaints of the check
that point into the entry are dropped.  In the end all complaints are sorted, and the list is cut to
the permitted length.
-/
import BibAudit.Checks.Table
import BibAudit.Report.Basic
import BibAudit.Selection

namespace BibAudit

/-- The choices for a run. -/
structure Policy where
  selected : CheckSet
  honorSuppressions : Bool
  onlyCited : Bool
  maxComplaints : Nat

/-- What a run looks at. -/
structure LintInput where
  bibliography : Bibliography
  /-- None if no documents were given; checks on citations then find nothing. -/
  citations : Option Citations
  documents : List Document
  probe : Option Probe
  /-- Complaints made while reading. -/
  parseComplaints : List Complaint

/-- The result of a run. -/
structure LintReport where
  /-- Sorted, and no longer than permitted. -/
  complaints : List Complaint
  summary : Summary
deriving Repr

/-- Nothing was found. -/
def LintReport.isClean (r : LintReport) : Bool :=
  r.complaints.isEmpty

namespace Lint

/-- What one check contributes: complaints, and how many units directives took out. -/
structure Tally where
  complaints : List Complaint
  suppressed : Nat

/-- No contribution. -/
def Tally.empty : Tally := ⟨[], 0⟩

/-- One contribution after another. -/
def Tally.append (a b : Tally) : Tally :=
  ⟨a.complaints ++ b.complaints, a.suppressed + b.suppressed⟩

/-- Contributions in a row. -/
def Tally.sum (ts : List Tally) : Tally :=
  ts.foldr Tally.append Tally.empty

/-- The complaint about a check that failed. -/
def failure (check : Check) (l : Location) (e : CheckError) : Complaint :=
  .raise Complaint.internalError l s!"Check \"{check.name}\" failed: {e.message}"

/-! ## Units -/

/-- Run a check on one entry. -/
def onEntry (policy : Policy) (ctx : Context) (check : Check)
    (run : Entry → Context → Findings) (e : Entry) : Tally :=
  if policy.honorSuppressions && e.isSuppressed check.name then ⟨[], 1⟩
  else match run e ctx with
    | .ok cs => ⟨cs, 0⟩
    | .error err => ⟨[(failure check e.location err).about e.key], 0⟩

/-- A complaint points into an entry that suppresses the check. -/
def isHidden (policy : Policy) (ctx : Context) (check : Check) (c : Complaint) : Bool :=
  policy.honorSuppressions &&
    (ctx.bibliography.entryAt? c.location).any fun e => e.isSuppressed check.name

/-- Run a check on the whole bibliography. -/
def onCollection (policy : Policy) (ctx : Context) (check : Check)
    (run : Context → Findings) : Tally :=
  match run ctx with
  | .ok cs =>
    ⟨cs.filter fun c => !isHidden policy ctx check c,
      (cs.filter (isHidden policy ctx check)).length⟩
  | .error err =>
    let l := (ctx.bibliography.entries.head?.map Entry.location).getD
      ⟨SourcePath.ofString "-", 0⟩
    ⟨[failure check l err], 0⟩

/-- The runs of `size` consecutive items. -/
def windows {α : Type} (size : Nat) : List α → List (List α)
  | [] => []
  | a :: rest =>
    let window := (a :: rest).take size
    if window.length = size then window :: windows size rest else []

/-- Run a check on windows of a document, in order. -/
def onWindows (check : Check) (d : Document)
    (run : Checks.Memory → Document → List Word → Findings × Checks.Memory) :
    Checks.Memory → List (List Word) → List Complaint
  | _, [] => []
  | m, window :: rest =>
    let (findings, m) := run m d window
    let here := match findings with
      | .ok cs => cs
      | .error err => [failure check ⟨d.path, (window.head?.map Word.line).getD 0⟩ err]
    here ++ onWindows check d run m rest

/-- How many words a window of a check has. -/
def windowSize (check : Check) : Nat :=
  match check.granularity with
  | .window n => max n 1
  | _ => 1

/-! ## Runs -/

/-- Run one check. -/
def runCheck (policy : Policy) (ctx : Context) (documents : List Document) (check : Check) :
    Tally :=
  match check.body with
  | .entry run => .sum (ctx.entries.map (onEntry policy ctx check run))
  | .collection run => onCollection policy ctx check run
  | .window run =>
    ⟨documents.flatMap fun d => onWindows check d run [] (windows (windowSize check) d.words), 0⟩

/-- The context of a run. -/
def contextOf (input : LintInput) (policy : Policy) : Context :=
  ⟨input.bibliography, input.citations, input.probe, policy.onlyCited⟩

/-- What the selected checks contribute together. -/
def tally (input : LintInput) (policy : Policy) : Tally :=
  .sum (policy.selected.toList.map (runCheck policy (contextOf input policy) input.documents))

/-- Why a list of complaints was cut. -/
def truncationReason (most : Nat) : String :=
  s!"complaints truncated to max_complaints={most}"

/-- Run the selected checks. -/
def evaluate (input : LintInput) (policy : Policy) : LintReport :=
  let found := tally input policy
  let all := Complaint.sort (input.parseComplaints ++ found.complaints)
  let emitted := all.take policy.maxComplaints
  let summary : Summary :=
    { bibliographiesParsed := 0
      entriesParsed := input.bibliography.entries.length
      documentsScanned := input.documents.length
      citationsFound := (input.citations.map Citations.occurrences).getD 0
      checksRun := policy.selected.toList.length
      unitsSuppressed := found.suppressed
      complaintsTotal := all.length
      complaintsEmitted := emitted.length
      truncatedReason :=
        if policy.maxComplaints < all.length then some (truncationReason policy.maxComplaints)
        else none }
  ⟨emitted, summary⟩

end Lint

end BibAudit
