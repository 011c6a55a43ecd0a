/-
# BibAudit.PersonName — the authors of an entry.

A list of authors is cut at the word `and` outside all braces.  A name that braces hold as a whole
names a body, not a person, and `others` names nobody.  A comma puts the last name first; without
one, the last word is the last name, together with the particles right before it.
-/
import BibAudit.Text.Basic

namespace BibAudit

/-- A person's name. -/
structure PersonName where
  first : String
  last : String
deriving DecidableEq, Repr

namespace PersonName

/-- The first name is an initial, or has a full stop in it. -/
def isAbbreviated (n : PersonName) : Bool :=
  n.first.toList.contains '.' || n.first.toList.length == 1

/-- Words that belong to the last name after them. -/
def particles : List (List Char) :=
  ["de".toList, "der".toList, "von".toList, "van".toList]

/-! ## Cutting a list of names -/

/-- How many braces are open after a word; a closing brace too many is ignored. -/
def depthAfter (depth : Nat) (word : List Char) : Nat :=
  word.foldl (fun d c => if c == '{' then d + 1 else if c == '}' then d - 1 else d) depth

/-- The words between the words `and` that stand outside all braces. -/
def cutAtAnd : Nat → List (List Char) → List (List (List Char))
  | _, [] => [[]]
  | depth, word :: rest =>
    if depth = 0 && word == "and".toList then [] :: cutAtAnd depth rest
    else match cutAtAnd (depthAfter depth word) rest with
      | [] => [[word]]
      | name :: names => (word :: name) :: names

/-- The name stands in braces. -/
def isBraced (name : List Char) : Bool :=
  name.head? == some '{' && name.getLast? == some '}'

/-- The names of persons in a list of names. -/
def splitNames (content : List Char) : List (List Char) :=
  ((cutAtAnd 0 (Text.words content)).map [' '].intercalate).filter fun name =>
    !name.isEmpty && name != "others".toList && !isBraced name

/-! ## One name -/

/-- First and last name, a particle in front of the last word counting with it. -/
def ofWords (ws : List (List Char)) : PersonName :=
  match ws.getLast? with
  | none => ⟨"", ""⟩
  | some surname =>
    let given := ws.dropLast.reverse
    let first := (given.dropWhile particles.contains).reverse
    let last := (given.takeWhile particles.contains).reverse ++ [surname]
    ⟨String.ofList ([' '].intercalate first), String.ofList ([' '].intercalate last)⟩

/-- Read one name; braces in it are left out. -/
def parse (name : List Char) : PersonName :=
  let name := name.filter fun c => !(c == '{' || c == '}')
  match Text.cutAt ',' name with
  | some (last, first) => ⟨String.ofList (Text.trim first), String.ofList (Text.trim last)⟩
  | none => ofWords (Text.words name)

/-- The text without `opening` in front and `closing` behind, if it has both. -/
def inside? (opening closing : Char) : List Char → Option (List Char)
  | [] => none
  | c :: rest => if c == opening && rest.getLast? == some closing then some rest.dropLast else none

/-- The persons that a raw value names; a name without a first name is left out. -/
def parseList (raw : String) : List PersonName :=
  let raw := Text.trim raw.toList
  let content := ((inside? '{' '}' raw).or (inside? '"' '"' raw)).getD raw
  ((splitNames content).map parse).filter fun n => !n.first.isEmpty

end PersonName

end BibAudit
