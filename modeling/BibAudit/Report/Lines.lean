/-
# BibAudit.Report.Lines — reports in lines of text.

Both forms give every complaint one line, in order; line breaks in a message become spaces.  The text
form shows the key, and ends with a note if complaints were held back.  The quickfix form is the one
that editors read, with column one.
-/
import BibAudit.Report.Basic

namespace BibAudit.Report

/-- A message on one line. -/
def oneLine (message : String) : String :=
  String.ofList (message.toList.map fun c => if c == '\r' || c == '\n' then ' ' else c)

/-- The key of a complaint as it stands in a line. -/
def keyText (key : Option String) : String :=
  match key with
  | none => ""
  | some key => s!" ({key})"

/-- The line of a complaint in the text form. -/
def textLine (c : Complaint) : String :=
  s!"{c.location.path.text}:{c.location.line}{keyText c.key}: {oneLine c.message} [{c.check}]"

/-- The note on complaints that were held back. -/
def note? (s : Summary) : Option String :=
  s.truncatedReason.map fun reason =>
    s!"note: {reason} ({s.complaintsEmitted} of {s.complaintsTotal} complaints shown)"

/-- The line of a complaint in the quickfix form. -/
def quickfixLine (c : Complaint) : String :=
  s!"{c.location.path.text}:{c.location.line}:1:{oneLine c.message} [{c.check}]"

/-- Lines, each ended by a newline. -/
def joinLines (ls : List String) : String :=
  String.join (ls.map fun l => l ++ "\n")

/-- The text form. -/
def renderText (r : Report) : String :=
  joinLines (r.complaints.map textLine ++ (note? r.summary).toList)

/-- The quickfix form. -/
def renderQuickfix (r : Report) : String :=
  joinLines (r.complaints.map quickfixLine)

end BibAudit.Report
