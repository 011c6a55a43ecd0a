/-
# BibAudit.Settings — choices from a file and from the command line.

A settings file may choose checks, the treatment of suppressions, whether only cited entries count,
and how many complaints are shown; members that it does not know are ignored.  The command line wins
over the file, and the file over the defaults.
-/
import BibAudit.Lint
import BibAudit.Toml.Reader

namespace BibAudit

/-- What a settings file sets. -/
structure Settings where
  schema : Option String
  checks : Option String
  suppressions : Option Bool
  onlyCited : Option Bool
  maxComplaints : Option Nat
deriving DecidableEq, Repr

/-- What the command line sets. -/
structure Overrides where
  checks : Option String
  noSuppressions : Bool
  onlyCited : Bool
  maxComplaints : Option Nat
deriving DecidableEq, Repr

/-- The choices for a run, with the expression that selected the checks. -/
structure Resolved where
  policy : Policy
  selection : String

/-- Why there are no choices. -/
inductive SettingsError
  /-- The file is no TOML document. -/
  | malformed
  /-- A member has a value of the wrong type. -/
  | wrongType (member : String)
  | selection (e : Selection.SelectionError)
  | noComplaints
deriving DecidableEq, Repr

/-- The wording of an error in the settings. -/
def SettingsError.message : SettingsError → String
  | .malformed => "invalid biblint.toml: not a TOML document"
  | .wrongType member => s!"invalid biblint.toml: wrong type for {member}"
  | .selection e => e.message
  | .noComplaints => "max_complaints must be at least 1"

namespace Settings

/-- A file that sets nothing. -/
def unset : Settings := ⟨none, none, none, none, none⟩

/-! ## Reading -/

/-- A member that is a string. -/
def string? (name : String) (ms : Toml.Members) : Except SettingsError (Option String) :=
  match ms.lookup name with
  | none => .ok none
  | some (.string s) => .ok (some s)
  | some _ => .error (.wrongType name)

/-- A member that is a boolean. -/
def boolean? (name : String) (ms : Toml.Members) : Except SettingsError (Option Bool) :=
  match ms.lookup name with
  | none => .ok none
  | some (.boolean b) => .ok (some b)
  | some _ => .error (.wrongType name)

/-- A member that is a natural number of 32 bits. -/
def count? (name : String) (ms : Toml.Members) : Except SettingsError (Option Nat) :=
  match ms.lookup name with
  | none => .ok none
  | some (.integer (.ofNat n)) => if n < Text.countLimit then .ok (some n) else .error (.wrongType name)
  | some _ => .error (.wrongType name)

/-- The settings in a file. -/
def parse (text : String) : Except SettingsError Settings :=
  match Toml.parse? text with
  | none => .error .malformed
  | some ms => do
    return ⟨← string? "schema" ms, ← string? "checks" ms, ← boolean? "suppressions" ms,
      ← boolean? "only_cited" ms, ← count? "max_complaints" ms⟩

/-! ## Resolving -/

/-- How many complaints are shown when nothing is set. -/
def defaultMost : Nat := 500

/-- The choices that settings and command line make together. -/
def resolve (s : Settings) (o : Overrides) : Except SettingsError Resolved :=
  let selection := (o.checks.or s.checks).getD Selection.default
  match Selection.parse selection with
  | .error e => .error (.selection e)
  | .ok selected =>
    let most := (o.maxComplaints.or s.maxComplaints).getD defaultMost
    if most = 0 then .error .noComplaints
    else
      let honor := if o.noSuppressions then false else s.suppressions.getD true
      .ok ⟨⟨selected, honor, o.onlyCited || s.onlyCited.getD false, most⟩, selection⟩

end Settings

end BibAudit
