/-
# BibAudit.CommandLine.Argument — arguments by their spelling.

An argument is an option, spelt `--name`, `--name=value` or by a letter, or it is a word.  Letters may
share one dash.  After two dashes that stand alone everything is a word; a single dash is one, too.
-/
import BibAudit.Text.Basic

namespace BibAudit.CommandLine

/-- A piece of the command line. -/
inductive Argument
  | option (name : String) (value : Option String)
  /-- A letter that is short for no option. -/
  | letter (c : Char)
  | word (text : String)
  /-- Two dashes that stand alone, for the first time. -/
  | dashes
deriving DecidableEq, Repr

namespace Argument

/-- The option that a letter is short for. -/
def longName? : Char → Option String
  | 'h' => some "help"
  | 'v' => some "verbose"
  | 'V' => some "version"
  | _ => none

/-- An option spelt by a letter. -/
def ofLetter (c : Char) : Argument :=
  match longName? c with
  | some name => .option name none
  | none => .letter c

/-- An option spelt by its name, with a value or without. -/
def ofName (cs : List Char) : Argument :=
  match Text.cutAt '=' cs with
  | some (name, value) => .option (String.ofList name) (some (String.ofList value))
  | none => .option (String.ofList cs) none

/-- What a single argument stands for. -/
def spelt (text : String) : List Argument :=
  match text.toList with
  | ['-'] => [.word text]
  | ['-', '-'] => [.dashes]
  | '-' :: '-' :: name => [ofName name]
  | '-' :: letters => letters.map ofLetter
  | _ => [.word text]

/-- The pieces of a command line. -/
def ofStrings : List String → List Argument
  | [] => []
  | text :: rest =>
    if text == "--" then .dashes :: rest.map .word else spelt text ++ ofStrings rest

end Argument

end BibAudit.CommandLine
