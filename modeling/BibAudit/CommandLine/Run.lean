/-
# BibAudit.CommandLine.Run — answering a command line.

An answer is an exit code with what is printed on both streams.  Code zero means that nothing was
found, two that there are complaints or that the command line cannot be understood, and one that the
request cannot be carried out.  The answer depends on nothing but the arguments, the files and the
times at which the run began and ended.
-/
import BibAudit.CommandLine.Command
import BibAudit.Explain
import BibAudit.Report.Json
import BibAudit.Report.Lines
import BibAudit.Session

namespace BibAudit.CommandLine

/-- An exit code, and what is printed. -/
structure Answer where
  code : Nat
  stdout : String
  stderr : String
deriving DecidableEq, Repr

namespace Answer

/-- All went well. -/
def success (stdout : String) : Answer := ⟨0, stdout, ""⟩

/-- The request cannot be carried out. -/
def failure (stderr : String) : Answer := ⟨1, "", stderr⟩

/-- The command line cannot be understood. -/
def usage (stderr : String) : Answer := ⟨2, "", stderr⟩

end Answer

/-! ## Texts -/

/-- The name and version of the program. -/
def versionText : String :=
  let tool := Report.currentTool
  s!"{tool.name} {tool.version}\n"

/-- How the program is called. -/
def usageText : String :=
  "Usage: biblint [-v]... check [OPTIONS] <BIB>...\n" ++
    "       biblint [-v]... list-checks\n" ++
    "       biblint [-v]... explain <CHECK>\n" ++
    "       biblint --help | --version\n" ++
    "Options of check: --tex <FILE>, --checks <CHECKS>, --no-suppressions, --only-cited,\n" ++
    "  --local-dir <DIR>, --format <text|quickfix|json>, --max-complaints <N>, --config <FILE>\n"

/-- The wording of a failure. -/
def failureText (message : String) : String :=
  s!"biblint error: {message}\n"

/-! ## The check command -/

/-- The settings file that is read if no other is named. -/
def defaultSettings : String := "biblint.toml"

/-- The text of the settings file.  The default file need not be there, one that is named must. -/
def settingsText (view : FileView) (o : CheckOptions) : Except String String :=
  match o.settings with
  | none =>
    match view.textStrict defaultSettings with
    | .ok text => .ok text
    | .error _ => .ok ""
  | some path =>
    match view.textStrict path with
    | .ok text => .ok text
    | .error e => .error s!"read config: {path}: {e.message}"

/-- The session that the options ask for. -/
def CheckOptions.request (o : CheckOptions) (settings : String) : Session.Request :=
  ⟨o.bibliographies, o.documents, settings, o.overrides, o.localDir⟩

/-- A report in a format. -/
def render : Format → Report → String
  | .text, r => r.renderText
  | .quickfix, r => r.renderQuickfix
  | .json, r => r.renderJson

/-- The answer to `check`. -/
def answerCheck (view : FileView) (o : CheckOptions) (started finished : Timestamp) : Answer :=
  match settingsText view o with
  | .error message => .failure (failureText message)
  | .ok settings =>
    match Session.run view (o.request settings) started finished with
    | .error e => .failure (failureText e.message)
    | .ok outcome =>
      ⟨outcome.report.exitCode, render (o.format.getD .text) outcome.report, ""⟩

/-! ## All commands -/

/-- The answer to `explain`. -/
def answerExplain (name : String) : Answer :=
  match Explain.find? name with
  | some c => .success (Explain.explanation c)
  | none => .failure (Explain.notFound name)

/-- The answer to a command. -/
def answer (view : FileView) (started finished : Timestamp) : Option Command → Answer
  | none => .usage usageText
  | some .help => .success usageText
  | some .version => .success versionText
  | some (.check o) => answerCheck view o started finished
  | some .listChecks => .success Explain.listChecks
  | some (.explain name) => answerExplain name

/-- The answer to a command line. -/
def run (view : FileView) (args : List String) (started finished : Timestamp) : Answer :=
  answer view started finished (Command.ofStrings? args)

/-! ## The files of a run -/

/-- The paths that a command reads from, local copies apart. -/
def pathsOf : Option Command → List String
  | some (.check o) => o.settings.getD defaultSettings :: (o.bibliographies ++ o.documents)
  | _ => []

/-- The paths at which a command looks for local copies, when the view knows the others. -/
def copiesOf (view : FileView) : Option Command → List String
  | some (.check o) =>
    match o.localDir, Session.sources view o.bibliographies with
    | some dir, .ok sources =>
      sources.flatMap fun s =>
        (Bib.read s.path s.text).entries.flatMap fun e => LocalCopies.candidates dir e.key
    | _, _ => []
  | _ => []

end BibAudit.CommandLine
