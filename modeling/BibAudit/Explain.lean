/-
# BibAudit.Explain — the catalog on the terminal.

One check is explained with all that the catalog says about it; an unknown name is answered with the
names there are.  The list of checks gives every check the first sentence of its description.
-/
import BibAudit.Catalog
import BibAudit.Text.Basic
import BibAudit.Text.Case

namespace BibAudit.Explain

/-- The printed name of what a check looks at. -/
def domainName : Domain → String
  | .bib => "bib"
  | .tex => "tex"

/-- How often a check runs, in words. -/
def granularityName : Granularity → String
  | .perEntry => "per entry"
  | .collection => "whole bibliography"
  | .window n => s!"windows of {n} words"

/-- A character so many times. -/
def repeated (c : Char) (n : Nat) : String :=
  String.ofList (List.replicate n c)

/-- Everything about one check. -/
def explanation (c : Check) : String :=
  let underline := repeated '=' c.name.length
  s!"{c.name}\n{underline}\n\n{c.description}\n\n" ++
    s!"Domain:      {domainName c.domain}\n" ++
    s!"Runs on:     {granularityName c.granularity}\n" ++
    "Default:     " ++ (if c.byDefault then "enabled" else "disabled") ++ "\n" ++
    s!"Suppress:    % LINT {c.name} <reason>\n"

/-- The answer to a name that no check has. -/
def notFound (name : String) : String :=
  s!"Unknown check: {name}\n\nAvailable checks:\n" ++
    String.join (Check.all.map fun c => s!"  - {c.name}\n")

/-- The check of a name, in either case. -/
def find? (name : String) : Option Check :=
  Check.ofName? (Text.lowerAscii name)

/-! ## The list of checks -/

/-- The text up to the first full stop that a space follows. -/
def firstSentence : List Char → List Char
  | [] => []
  | '.' :: ' ' :: _ => []
  | c :: rest => c :: firstSentence rest

/-- What the list says about a check: the first sentence, without a full stop. -/
def summary (c : Check) : String :=
  let sentence := firstSentence c.description.toList
  String.ofList ((sentence.reverse.dropWhile (· == '.')).reverse)

/-- The length of the longest name. -/
def nameWidth : Nat :=
  (Check.all.map fun c => c.name.length).foldl max 0

/-- One line of the list, with a star before checks that run by default. -/
def listed (c : Check) : String :=
  let mark := if c.byDefault then "*" else " "
  let fill := repeated ' ' (nameWidth - c.name.length)
  s!"  {mark} {c.name}{fill}  {summary c}\n"

/-- The checks of a domain, under a heading. -/
def domainList (heading : String) (d : Domain) : String :=
  s!"{heading}:\n" ++ String.join ((Check.all.filter fun c => c.domain == d).map listed) ++ "\n"

/-- All checks, by domain. -/
def listChecks : String :=
  domainList "Bibliography checks" .bib ++ domainList "Document checks" .tex ++
    "* enabled by DEFAULT. Groups: ALL, DEFAULT, BIB, TEX.\n" ++
    "Select with --checks, e.g. --checks 'DEFAULT:-misformatted-month:+repeated-words'.\n"

end BibAudit.Explain
