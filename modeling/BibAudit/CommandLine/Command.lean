/-
# BibAudit.CommandLine.Command — what a command line asks for.

Arguments are read from the left, and the first that cannot be understood decides: a wish for help
before it is granted, one after it is not.  An option of `check` that has a value takes it from its
own argument or from the word that follows.  No option of `check` may be given twice, except `--tex`;
`--verbose` may stand anywhere and as often as one likes.
-/
import BibAudit.CommandLine.Argument
import BibAudit.Settings

namespace BibAudit.CommandLine

/-- How a report is printed. -/
inductive Format
  | text
  | quickfix
  | json
deriving DecidableEq, Repr

/-- The format of a name. -/
def Format.ofName? : String → Option Format
  | "text" => some .text
  | "quickfix" => some .quickfix
  | "json" => some .json
  | _ => none

/-- What `check` was told. -/
structure CheckOptions where
  bibliographies : List String := []
  documents : List String := []
  checks : Option String := none
  noSuppressions : Bool := false
  onlyCited : Bool := false
  localDir : Option String := none
  format : Option Format := none
  maxComplaints : Option Nat := none
  settings : Option String := none
deriving DecidableEq, Repr

/-- What a command line asks for. -/
inductive Command
  | help
  | version
  | check (o : CheckOptions)
  | listChecks
  | explain (name : String)
deriving DecidableEq, Repr

/-! ## Options of the check command -/

/-- A number of complaints: digits with a sign or none, in 32 bits.  Minus zero is zero. -/
def count? (text : String) : Option Nat :=
  let (negative, digits) := match text.toList with
    | '+' :: digits => (false, digits)
    | '-' :: digits => (true, digits)
    | digits => (false, digits)
  let n := Text.decimalValue digits
  if Text.isNumeral digits && n < Text.countLimit && (!negative || n == 0) then some n else none

/-- The value of an option that had none before. -/
def once {α : Type} (before : Option α) (value : Option α) : Option (Option α) :=
  if before.isSome then none else value.map some

namespace CheckOptions

/-- The option has no value. -/
def isSwitch (name : String) : Bool :=
  name == "no-suppressions" || name == "only-cited"

/-- Turn on an option without a value. -/
def turnOn? (o : CheckOptions) : String → Option CheckOptions
  | "no-suppressions" => if o.noSuppressions then none else some { o with noSuppressions := true }
  | "only-cited" => if o.onlyCited then none else some { o with onlyCited := true }
  | _ => none

/-- Give an option its value. -/
def give? (o : CheckOptions) (name value : String) : Option CheckOptions :=
  match name with
  | "tex" => some { o with documents := o.documents ++ [value] }
  | "checks" => (once o.checks (some value)).map fun v => { o with checks := v }
  | "local-dir" => (once o.localDir (some value)).map fun v => { o with localDir := v }
  | "format" => (once o.format (Format.ofName? value)).map fun v => { o with format := v }
  | "max-complaints" =>
    (once o.maxComplaints (count? value)).map fun v => { o with maxComplaints := v }
  | "config" => (once o.settings (some value)).map fun v => { o with settings := v }
  | _ => none

/-- Read another bibliography. -/
def addBibliography (o : CheckOptions) (path : String) : CheckOptions :=
  { o with bibliographies := o.bibliographies ++ [path] }

/-- What the options say about the choices for a run. -/
def overrides (o : CheckOptions) : Overrides :=
  ⟨o.checks, o.noSuppressions, o.onlyCited, o.maxComplaints⟩

end CheckOptions

/-! ## Commands -/

/-- The command line of `check` after what has been read; one bibliography at least is needed. -/
def readCheck (o : CheckOptions) : List Argument → Option Command
  | [] => if o.bibliographies.isEmpty then none else some (.check o)
  | .dashes :: rest => readCheck o rest
  | .word path :: rest => readCheck (o.addBibliography path) rest
  | .option "verbose" none :: rest => readCheck o rest
  | .option "help" none :: _ => some .help
  | .option name (some value) :: rest => (o.give? name value).bind fun o => readCheck o rest
  | .option name none :: rest =>
    if CheckOptions.isSwitch name then (o.turnOn? name).bind fun o => readCheck o rest
    else match rest with
      | .word value :: rest => (o.give? name value).bind fun o => readCheck o rest
      | _ => none
  | .letter _ :: _ => none

/-- The command line of `list-checks`, which takes no words. -/
def readListChecks : List Argument → Option Command
  | [] => some .listChecks
  | .dashes :: rest => readListChecks rest
  | .option "verbose" none :: rest => readListChecks rest
  | .option "help" none :: _ => some .help
  | _ => none

/-- The command line of `explain` after what has been read; it takes one word. -/
def readExplain (name : Option String) : List Argument → Option Command
  | [] => name.map .explain
  | .dashes :: rest => readExplain name rest
  | .option "verbose" none :: rest => readExplain name rest
  | .option "help" none :: _ => some .help
  | .word text :: rest => if name.isSome then none else readExplain (some text) rest
  | _ => none

/-- The command line of `help`, which takes the name of a command or nothing. -/
def readHelp : List Argument → Option Command
  | [] => some .help
  | [.word name] =>
    if ["check", "list-checks", "explain", "help"].contains name then some .help else none
  | _ => none

/-- A whole command line, none if it cannot be understood. -/
def read : List Argument → Option Command
  | .option "verbose" none :: rest => read rest
  | .option "help" none :: _ => some .help
  | .option "version" none :: _ => some .version
  | .word "check" :: rest => readCheck {} rest
  | .word "list-checks" :: rest => readListChecks rest
  | .word "explain" :: rest => readExplain none rest
  | .word "help" :: rest => readHelp rest
  | _ => none

/-- What a command line asks for, none if it cannot be understood. -/
def Command.ofStrings? (args : List String) : Option Command :=
  read (Argument.ofStrings args)

end BibAudit.CommandLine
