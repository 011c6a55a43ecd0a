/-
# BibAudit.Tex.Pattern — finding commands in a line.

A pattern reads at one place of a line and says how much it takes.  A line is searched from the
left; what a match takes is not searched again, and a place without a match is passed over.
-/
namespace BibAudit.Tex

/-- Reads from the start of a text: what was found, and what is left after it. -/
abbrev Pattern (α : Type) := List Char → Option (α × List Char)

/-- A part of a searched line. -/
inductive Piece (α : Type)
  /-- A character outside all matches. -/
  | plain (c : Char)
  | found (a : α)
deriving Repr

/-- Search a text, after passing over `skip` characters of the last match. -/
def piecesFrom {α : Type} (p : Pattern α) : Nat → List Char → List (Piece α)
  | _, [] => []
  | skip + 1, _ :: rest => piecesFrom p skip rest
  | 0, c :: rest =>
    match p (c :: rest) with
    | some (a, left) => .found a :: piecesFrom p (rest.length - left.length) rest
    | none => .plain c :: piecesFrom p 0 rest

/-- The parts of a text: matches from the left, and the characters between them. -/
def pieces {α : Type} (p : Pattern α) (cs : List Char) : List (Piece α) :=
  piecesFrom p 0 cs

/-- What a part leaves when a match gives way to a space. -/
def Piece.blanked {α : Type} : Piece α → Char
  | .plain c => c
  | .found _ => ' '

/-- The text with every match replaced by a space. -/
def blankOut {α : Type} (p : Pattern α) (cs : List Char) : List Char :=
  (pieces p cs).map Piece.blanked

/-- The matches of a text. -/
def findAll {α : Type} (p : Pattern α) (cs : List Char) : List α :=
  (pieces p cs).filterMap fun
    | .plain _ => none
    | .found a => some a

/-! ## Parts of patterns -/

/-- What stands before the first `close`, and what is left after it; none if there is no such
character. -/
def upTo (close : Char) : Pattern (List Char)
  | [] => none
  | c :: rest =>
    if c == close then some ([], rest)
    else (upTo close rest).map fun (inside, left) => (c :: inside, left)

/-- A group: its opening character, and everything to the first closing one. -/
def group (opening closing : Char) : Pattern (List Char)
  | [] => none
  | c :: rest => if c == opening then upTo closing rest else none

/-- What is left after a character that may stand there. -/
def dropOptional (p : Char → Bool) : List Char → List Char
  | [] => []
  | c :: rest => if p c then rest else c :: rest

/-- What is left after a group that may stand there. -/
def dropGroup (opening closing : Char) (cs : List Char) : List Char :=
  match group opening closing cs with
  | some (_, left) => left
  | none => cs

end BibAudit.Tex
