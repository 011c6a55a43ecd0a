/-
# BibAudit.Value.Unprotected — reference words that braces do not protect.

A reference word occurs in a token where its characters stand one after the other, in either case,
and neither neighbour continues the word.  An occurrence is unprotected when one of its own
characters stands outside all braces; what else the token holds does not matter.
-/
import BibAudit.Text.Case
import BibAudit.Text.Class.Number
import BibAudit.Value.Scan

namespace BibAudit.Value

/-- Two characters are the same letter in either case. -/
def sameLetter (a b : Char) : Bool :=
  Text.lowerChar a == Text.lowerChar b

/-- The characters of a word stand at the start of some glyphs. -/
def spelledAt : List Char → List Glyph → Bool
  | [], _ => true
  | _ :: _, [] => false
  | c :: word, g :: rest => sameLetter g.char c && spelledAt word rest

/-- A neighbour, if there is one, does not continue a word. -/
def boundsWord (neighbour : Option Char) : Bool :=
  match neighbour with
  | none => true
  | some c => !Text.isAlphanumeric c

/-- The word occurs at the start of some glyphs, `before` being the character in front of them, and
one of its characters is at depth zero. -/
def unprotectedAt (word : List Char) (before : Option Char) (gs : List Glyph) : Bool :=
  spelledAt word gs && boundsWord before &&
    boundsWord ((gs.drop word.length).head?.map Glyph.char) &&
    leastDepth (gs.take word.length) == 0

/-- An unprotected occurrence starts somewhere in the glyphs. -/
def unprotectedFrom (word : List Char) : Option Char → List Glyph → Bool
  | _, [] => false
  | before, g :: rest =>
    unprotectedAt word before (g :: rest) || unprotectedFrom word (some g.char) rest

/-- A reference word, and the first token in which it is unprotected. -/
structure Unprotected where
  word : String
  token : String
deriving DecidableEq, Repr

/-- The first token that holds an unprotected occurrence of the word; none for an empty word. -/
def unprotectedIn? (s : Scanned) (word : List Char) : Option Token :=
  if word.isEmpty then none else s.tokens.find? (unprotectedFrom word none)

/-- The reference words with an unprotected occurrence, in the order of the reference. -/
def findUnprotected (s : Scanned) (reference : List String) : List Unprotected :=
  reference.filterMap fun word =>
    (unprotectedIn? s word.toList).map fun token => ⟨word, Token.text token⟩

end BibAudit.Value
