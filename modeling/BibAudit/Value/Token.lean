/-
# BibAudit.Value.Token — visible characters and their depth.

Scanning a value leaves its visible characters, each with the number of brace pairs around it, in
tokens that blanks separated.  A stretch of a token is as deep as its shallowest character: one
unprotected character leaves the stretch unprotected.
-/
namespace BibAudit.Value

/-- A visible character and the number of brace pairs around it. -/
structure Glyph where
  char : Char
  depth : Nat
deriving DecidableEq, Repr

/-- A run of visible characters without a blank in it. -/
abbrev Token := List Glyph

/-- The least depth among some glyphs; none counts as unprotected. -/
def leastDepth : List Glyph → Nat
  | [] => 0
  | [g] => g.depth
  | g :: rest => min g.depth (leastDepth rest)

namespace Token

/-- The characters of a token. -/
def chars (t : Token) : List Char :=
  t.map Glyph.char

/-- The text of a token. -/
def text (t : Token) : String :=
  String.ofList t.chars

/-- The least depth in a token. -/
def depth (t : Token) : Nat :=
  leastDepth t

/-- The least depth among characters `start` to `stop - 1`, as far as the token reaches; an empty
stretch, or one that starts beyond the token, counts as unprotected. -/
def spanDepth (t : Token) (start stop : Nat) : Nat :=
  leastDepth ((t.take stop).drop start)

/-- The glyphs that start at a byte in `start ≤ byte < stop`, when the first glyph starts at byte
`offset`. -/
def startingIn (start stop : Nat) : Nat → List Glyph → List Glyph
  | _, [] => []
  | offset, g :: rest =>
    let others := startingIn start stop (offset + g.char.utf8Size) rest
    if start ≤ offset && offset < stop then g :: others else others

/-- The least depth among the characters that start in a range of bytes of the token's text. -/
def byteSpanDepth (t : Token) (start stop : Nat) : Nat :=
  leastDepth (startingIn start stop 0 t)

end Token

end BibAudit.Value
