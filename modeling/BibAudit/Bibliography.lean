/-
# BibAudit.Bibliography — all entries of a run, and all citations.

A bibliography holds its entries in the order in which they were read, with an index from keys to
positions.  Citations are grouped by key.  Documents are streams of words with their lines.
-/
import BibAudit.Entry
import BibAudit.Groups

namespace BibAudit

/-- Entries in order, and the positions of each key. -/
structure Bibliography where
  entries : List Entry
  positions : Groups Nat
deriving Repr

namespace Bibliography

/-- The bibliography of some entries. -/
def ofEntries (entries : List Entry) : Bibliography :=
  ⟨entries, Groups.ofList (entries.zipIdx.map fun (e, i) => (e.key, i))⟩

/-- Some entry has this key. -/
def hasKey (b : Bibliography) (key : String) : Bool :=
  b.positions.has key

/-- Every entry with this key, in order. -/
def allWithKey (b : Bibliography) (key : String) : List Entry :=
  (b.positions.valuesOf key).filterMap fun i => b.entries[i]?

/-- The first entry with this key. -/
def get? (b : Bibliography) (key : String) : Option Entry :=
  (b.positions.valuesOf key).head?.bind fun i => b.entries[i]?

/-- The first entry one of whose lines is the location. -/
def entryAt? (b : Bibliography) (l : Location) : Option Entry :=
  b.entries.find? (·.spans l)

end Bibliography

/-! ## Citations -/

/-- One cited key, and where. -/
structure Citation where
  key : String
  location : Location
deriving DecidableEq, Repr

/-- The places where each key is cited. -/
structure Citations where
  places : Groups Location
deriving Repr

namespace Citations

/-- Citations grouped by key. -/
def ofList (cs : List Citation) : Citations :=
  ⟨Groups.ofList (cs.map fun c => (c.key, c.location))⟩

/-- The key is cited. -/
def contains (c : Citations) (key : String) : Bool :=
  c.places.has key

/-- Every place where the key is cited. -/
def locations (c : Citations) (key : String) : List Location :=
  c.places.valuesOf key

/-- How many different keys are cited. -/
def distinct (c : Citations) : Nat :=
  c.places.length

/-- How many citations there are. -/
def occurrences (c : Citations) : Nat :=
  c.places.total

end Citations

/-! ## Documents -/

/-- A word, and its line. -/
structure Word where
  text : String
  line : Nat
deriving DecidableEq, Repr

/-- The words of one document. -/
structure Document where
  path : SourcePath
  words : List Word
deriving Repr

end BibAudit
