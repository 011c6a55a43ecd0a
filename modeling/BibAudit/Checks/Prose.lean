/-
# BibAudit.Checks.Prose — runs of words in a document.

A window check looks at every run of consecutive words of a fixed length.  It may remember things
from one window of a document to the next; only the check on repeated words does, to keep quiet
about a stem for a while after it has reported it.
-/
import BibAudit.Checks.Context
import BibAudit.Text.Case

namespace BibAudit.Checks

/-- How many more sightings of a stem are passed over in silence. -/
abbrev Memory := List (String × Nat)

/-- A complaint about a word of a document. -/
def complainOfWord (check : Check) (d : Document) (w : Word) (message : String) : Complaint :=
  .raise check.name ⟨d.path, w.line⟩ message

/-! ## Pairs of words -/

/-- A number and the word `bit` after it. -/
def numberWordHyphen (d : Document) : List Word → List Complaint
  | [number, unit] =>
    let digits := number.text.toList
    if !digits.isEmpty && digits.all Char.isDigit && unit.text == "bit" then
      [complainOfWord .numberWordHyphen d unit
        (s!"\"{number.text} {unit.text}\" should probably be hyphenated: " ++
          s!"{number.text}-{unit.text}")]
    else []
  | _ => []

/-- Pairs that are usually written as one word. -/
def separatedPairs : List (List Char × List Char) :=
  [("bit".toList, "stream".toList), ("byte".toList, "code".toList), ("run".toList, "time".toList),
    ("key".toList, "less".toList), ("hard".toList, "code".toList),
    ("hard".toList, "coded".toList), ("work".toList, "flow".toList)]

/-- Two words that are usually written as one. -/
def separatedWords (d : Document) : List Word → List Complaint
  | [first, second] =>
    if separatedPairs.contains (Text.lower first.text.toList, Text.lower second.text.toList) then
      [complainOfWord .separatedWords d first
        (s!"\"{first.text} {second.text}\" is usually written as one word: " ++
          s!"{first.text}{second.text}")]
    else []
  | _ => []

/-! ## Repeated stems -/

/-- How often a stem must occur in a window. -/
def repeatThreshold : Nat := 4

/-- For how many sightings a reported stem is passed over. -/
def holdOff : Nat := 20

/-- Words that may repeat. -/
def repeatable : List (List Char) :=
  ["the".toList, "are".toList, "were".toList]

/-- The text without an ending, if it has it. -/
def dropEnding (ending cs : List Char) : List Char :=
  if ending.isSuffixOf cs then cs.take (cs.length - ending.length) else cs

/-- The stem of a word: small letters, without a plural `s` and then without `er`. -/
def stem (word : List Char) : List Char :=
  dropEnding ['e', 'r'] (dropEnding ['s'] (Text.lower word))

/-- The stem of a word that counts: three characters or more, and not repeatable. -/
def countedStem? (w : Word) : Option String :=
  let small := Text.lower w.text.toList
  if small.length < 3 || repeatable.contains small then none else some (String.ofList (stem small))

/-- The stems that occur often enough, the most frequent first, equally frequent ones by name. -/
def frequentStems (window : List Word) : List (String × Nat) :=
  let counts := (Groups.ofList ((window.filterMap countedStem?).map fun s => (s, ()))).map
    fun (s, units) => (s, units.length)
  (counts.filter fun c => repeatThreshold ≤ c.2).mergeSort fun a b => b.2 ≤ a.2

/-- The memory with a new number for a stem. -/
def remember (stem : String) (left : Nat) (m : Memory) : Memory :=
  (stem, left) :: m.filter fun entry => entry.1 != stem

/-- One sighting of a stem: report it, unless it is still passed over. -/
def sight (m : Memory) (stem : String) : Bool × Memory :=
  match m.lookup stem with
  | some (left + 1) => (false, remember stem left m)
  | _ => (true, remember stem holdOff m)

/-- Sight some stems in turn; the first word of the window is where they are reported. -/
def sightAll (d : Document) (first : Word) (size : Nat) :
    Memory → List (String × Nat) → List Complaint × Memory
  | m, [] => ([], m)
  | m, (stem, count) :: rest =>
    let (report, m) := sight m stem
    let (complaints, m) := sightAll d first size m rest
    if report then
      (complainOfWord .repeatedWords d first
        s!"Word stem \"{stem}\" occurs {count} times within {size} words" :: complaints, m)
    else (complaints, m)

/-- Stems that repeat within a window. -/
def repeatedWords (m : Memory) (d : Document) (window : List Word) : List Complaint × Memory :=
  match window with
  | [] => ([], m)
  | first :: _ => sightAll d first window.length m (frequentStems window)

end BibAudit.Checks
