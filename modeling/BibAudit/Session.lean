/-
# BibAudit.Session — one run from files to report.

The settings are read and resolved first, and a choice that cannot work is refused before any file is
opened.  Then the bibliographies are read, then the documents, each list in the order given; the
first that cannot be read ends the session.  Bad bytes in them are replaced, never refused.
-/
import BibAudit.Bib.Reader
import BibAudit.Files.LocalCopies
import BibAudit.Report.Basic
import BibAudit.Settings
import BibAudit.Tex.Prose

namespace BibAudit

namespace Session

/-- What a session is asked to do. -/
structure Request where
  bibliographies : List String
  documents : List String
  /-- The text of the settings file; blank if there is none. -/
  settings : String
  overrides : Overrides
  localDir : Option String

/-- Why a session gives no report. -/
inductive SessionError
  | settings (e : SettingsError)
  | choices (e : SettingsError)
  /-- Only cited entries count, and there is nothing that cites. -/
  | noDocuments
  /-- Local copies are asked for, and there is nowhere to look. -/
  | noLocalDir
  | bibliography (path : String) (e : FileError)
  | document (path : String) (e : FileError)
deriving DecidableEq, Repr

/-- The wording of an error. -/
def SessionError.message : SessionError → String
  | .settings e => s!"parse config: {e.message}"
  | .choices e => s!"resolve config: {e.message}"
  | .noDocuments => "only_cited needs at least one document (--tex) to know what is cited"
  | .noLocalDir =>
    let check := Check.localCopies.name
    s!"check '{check}' is selected but no local copy directory was given (--local-dir)"
  | .bibliography path e => s!"load bibliographies: read {path}: {e.message}"
  | .document path e => s!"load documents: read {path}: {e.message}"

/-- A report, and the choices that it was made with. -/
structure Outcome where
  report : Report
  choices : Resolved

/-! ## Choices -/

/-- What the settings file sets. -/
def Request.given (r : Request) : Except SettingsError Settings :=
  if (Text.trim r.settings.toList).isEmpty then .ok Settings.unset else Settings.parse r.settings

/-- The choices of a session. -/
def choices (r : Request) : Except SessionError Resolved :=
  match r.given with
  | .error e => .error (.settings e)
  | .ok given =>
    match given.resolve r.overrides with
    | .error e => .error (.choices e)
    | .ok resolved =>
      if resolved.policy.onlyCited && r.documents.isEmpty then .error .noDocuments
      else if resolved.policy.selected .localCopies && r.localDir.isNone then
        .error .noLocalDir
      else .ok resolved

/-! ## Files -/

/-- A file that was read, under the name that complaints give it. -/
structure Source where
  path : SourcePath
  text : String

/-- The files at some paths, or the first that cannot be read. -/
def sources (view : FileView) : List String → Except (String × FileError) (List Source)
  | [] => .ok []
  | path :: rest =>
    match view.textLossy path with
    | .error e => .error (path, e)
    | .ok text =>
      (sources view rest).map fun read => ⟨SourcePath.ofString path, text⟩ :: read

/-- What the checks look at. -/
def inputOf (bibliographies documents : List Source) (probe : Option Probe) : LintInput :=
  let parsed := bibliographies.map fun s => Bib.read s.path s.text
  { bibliography := .ofEntries (parsed.flatMap fun y => y.entries)
    citations :=
      if documents.isEmpty then none
      else some (.ofList (documents.flatMap fun s => Tex.citations s.path s.text))
    documents := documents.map fun s => Tex.document s.path s.text
    probe
    parseComplaints := parsed.flatMap fun y => y.complaints }

/-- The input of a session. -/
def load (view : FileView) (r : Request) : Except SessionError LintInput :=
  match sources view r.bibliographies with
  | .error (path, e) => .error (.bibliography path e)
  | .ok bibliographies =>
    match sources view r.documents with
    | .error (path, e) => .error (.document path e)
    | .ok documents =>
      .ok (inputOf bibliographies documents (r.localDir.map (LocalCopies.probe view)))

/-! ## Runs -/

/-- The report of a run between two times. -/
def reportOf (input : LintInput) (policy : Policy) (files : Nat) (started finished : Timestamp) :
    Report :=
  let result := Lint.evaluate input policy
  { schema := Report.currentSchema
    tool := Report.currentTool
    startedAt := started
    finishedAt := finished
    summary := { result.summary with bibliographiesParsed := files }
    complaints := result.complaints }

/-- Run a session. -/
def run (view : FileView) (r : Request) (started finished : Timestamp) :
    Except SessionError Outcome :=
  match choices r with
  | .error e => .error e
  | .ok resolved =>
    (load view r).map fun input =>
      ⟨reportOf input resolved.policy r.bibliographies.length started finished, resolved⟩

end Session

end BibAudit
