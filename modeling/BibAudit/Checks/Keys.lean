/-
# BibAudit.Checks.Keys — keys that are defined, and keys that are cited.

A key should be defined once.  When there are documents, every key that is defined should be cited,
and every key that is cited must be defined.
-/
import BibAudit.Checks.Context

namespace BibAudit.Checks

/-- The complaint about entries with the same key. -/
def sameKey (key : String) : List Entry → List Complaint
  | first :: second :: rest =>
    let copies := second :: rest
    let places := commaList ((first :: copies).map fun e => e.location.text)
    [(first.complain .duplicateEntries
      s!"Citation key \"{key}\" is defined {copies.length + 1} times: {places}").referringTo
        (copies.map Entry.location)]
  | _ => []

/-- Keys that several entries share. -/
def duplicateEntries (ctx : Context) : Findings :=
  .ok ((Groups.ofList (ctx.entries.map fun e => (e.key, e))).flatMap fun (key, es) =>
    sameKey key es)

/-- The entries whose key no entry before them has, keys in `seen` left out. -/
def firstOfEachKey (seen : List String) : List Entry → List Entry
  | [] => []
  | e :: rest =>
    if seen.contains e.key then firstOfEachKey seen rest
    else e :: firstOfEachKey (e.key :: seen) rest

/-- Keys that are never cited. -/
def uncitedCitations (ctx : Context) : Findings :=
  match ctx.citations with
  | none => .ok []
  | some citations =>
    let uncited := ctx.entries.filter fun e => !citations.contains e.key
    .ok ((firstOfEachKey [] uncited).map fun e =>
      (e.complain .uncitedCitations s!"Entry \"{e.key}\" is never cited").referringTo
        (((ctx.bibliography.allWithKey e.key).drop 1).map Entry.location))

/-- Citations of keys that no entry defines. -/
def undefinedCitations (ctx : Context) : Findings :=
  match ctx.citations with
  | none => .ok []
  | some citations =>
    .ok (citations.places.flatMap fun (key, locations) =>
      if ctx.bibliography.hasKey key then []
      else locations.map fun l =>
        (Complaint.raise Check.undefinedCitations.name l
          s!"Citation \"{key}\" is not defined in any bibliography").about key)

end BibAudit.Checks
