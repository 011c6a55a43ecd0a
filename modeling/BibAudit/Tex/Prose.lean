/-
# BibAudit.Tex.Prose — the words of a document.

What is left of a line after its comment are commands, mathematics and prose.  Citations, then
commands whose arguments are not prose, then mathematics between dollar signs, then all other
commands give way to spaces, and so do braces and ties.  The words are what blanks separate, without
punctuation in front or behind.
-/
import BibAudit.Tex.Citation

namespace BibAudit.Tex

/-- Commands whose arguments are not prose. -/
def silentCommands : List String :=
  ["begin", "end", "label", "ref", "eqref", "cref", "Cref", "autoref", "pageref", "url", "input",
    "include", "selectlanguage", "todo", "setlength", "bibliography", "bibliographystyle",
    "usepackage", "documentclass"]

/-- What is left after as many brace groups as follow, when `left` groups at most are read. -/
def dropGroups : Nat → List Char → List Char
  | 0, cs => cs
  | left + 1, cs =>
    match group '{' '}' cs with
    | some (_, rest) => dropGroups left rest
    | none => cs

/-- A command whose arguments are not prose, with its optional argument and one group or more. -/
def silentCommand : Pattern Unit
  | '\\' :: rest =>
    if silentCommands.contains (String.ofList (rest.takeWhile Char.isAlpha)) then
      let rest := dropOptional (· == '*') (rest.dropWhile Char.isAlpha)
      (group '{' '}' (dropGroup '[' ']' rest)).map fun (_, rest) =>
        ((), dropGroups rest.length rest)
    else none
  | _ => none

/-- Mathematics between two dollar signs. -/
def inlineMath : Pattern Unit
  | '$' :: rest => (upTo '$' rest).map fun (_, rest) => ((), rest)
  | _ => none

/-- Characters of the name of a command. -/
def isCommandChar (c : Char) : Bool :=
  c.isAlpha || c == '@'

/-- Any command: a backslash and a name with or without a star, or a backslash and one character. -/
def command : Pattern Unit
  | '\\' :: c :: rest =>
    if isCommandChar c then some ((), dropOptional (· == '*') (rest.dropWhile isCommandChar))
    else if c == '\n' then none
    else some ((), rest)
  | _ => none

/-- Punctuation that may stand before a word. -/
def isLeading (c : Char) : Bool :=
  ['[', '(', '<', '"', Char.ofNat 0x60, Char.ofNat 0x27].contains c

/-- Punctuation that may stand after a word. -/
def isTrailing (c : Char) : Bool :=
  ['.', ';', ':', ',', ']', ')', '>', '"', Char.ofNat 0x27, '!', '?'].contains c

/-- A word without the punctuation around it. -/
def bareWord (token : List Char) : List Char :=
  Text.dropEndWhile isTrailing (token.dropWhile isLeading)

/-- The prose of a line, markup replaced by spaces. -/
def prose (line : List Char) : List Char :=
  (blankOut command (blankOut inlineMath (blankOut silentCommand (blankOut cite
    (stripComment line))))).map fun c => if c == '~' || c == '{' || c == '}' then ' ' else c

/-- The words of one line. -/
def wordsOn (line : List Char) : List String :=
  (((Text.words (prose line)).map bareWord).filter fun w => !w.isEmpty).map String.ofList

/-- The words of a document. -/
def document (path : SourcePath) (text : String) : Document :=
  ⟨path, (numberedLines text).flatMap fun (line, n) => (wordsOn line).map fun w => ⟨w, n⟩⟩

end BibAudit.Tex
