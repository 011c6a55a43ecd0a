/-
# BibAudit.Report.Json — reports as JSON, written and read.

The written form has its members in a fixed order; a key, related lines and a reason for cutting are
left out where there are none.  The reader takes members in any order and ignores those that it does
not know; a record may also be a list of its members' values, in order.  Paths are taken as they are.
-/
import BibAudit.Json.Printer
import BibAudit.Json.Reader
import BibAudit.Report.Basic

namespace BibAudit.Report

/-! ## Writing -/

/-- A location. -/
def locationJson (l : Location) : Json :=
  .obj [("path", .str l.path.text), ("line", .nat l.line)]

/-- A member that is left out when it holds nothing. -/
def memberIfSome (name : String) (value : Option String) : List (String × Json) :=
  value.toList.map fun s => (name, .str s)

/-- A complaint. -/
def complaintJson (c : Complaint) : Json :=
  let related :=
    if c.related.isEmpty then [] else [("related", Json.arr (c.related.map locationJson))]
  .obj ([("location", locationJson c.location)] ++ memberIfSome "key" c.key ++
    [("check", .str c.check), ("message", .str c.message)] ++ related)

/-- The counts. -/
def summaryJson (s : Summary) : Json :=
  .obj ([("bibliographies_parsed", .nat s.bibliographiesParsed),
    ("entries_parsed", .nat s.entriesParsed),
    ("documents_scanned", .nat s.documentsScanned),
    ("citations_found", .nat s.citationsFound),
    ("checks_run", .nat s.checksRun),
    ("units_suppressed", .nat s.unitsSuppressed),
    ("complaints_total", .nat s.complaintsTotal),
    ("complaints_emitted", .nat s.complaintsEmitted)] ++
    memberIfSome "truncated_reason" s.truncatedReason)

/-- A report. -/
def toJson (r : Report) : Json :=
  .obj [("schema", .str r.schema),
    ("tool", .obj [("name", .str r.tool.name), ("version", .str r.tool.version)]),
    ("started_at", .str r.startedAt.text), ("finished_at", .str r.finishedAt.text),
    ("summary", summaryJson r.summary), ("complaints", .arr (r.complaints.map complaintJson))]

/-- The JSON form of a report. -/
def renderJson (r : Report) : String :=
  (toJson r).pretty ++ "\n"

/-! ## Reading -/

/-- The values of a record's members, in the order of their names; none where a member is missing.
A list gives the values in that order itself, and may end early. -/
def record? (names : List String) : Json → Option (List (Option Json))
  | .obj members => some (names.map fun name => (Json.obj members).get? name)
  | .arr items =>
    if items.length ≤ names.length then
      some (items.map some ++ List.replicate (names.length - items.length) none)
    else none
  | _ => none

/-- A string. -/
def string? : Json → Option String
  | .str s => some s
  | _ => none

/-- A natural number of 32 bits. -/
def count? : Json → Option Nat
  | .int (.ofNat n) => if n < Text.countLimit then some n else none
  | _ => none

/-- A string that may be missing or null. -/
def optionalString? : Option Json → Option (Option String)
  | none | some .null => some none
  | some (.str s) => some (some s)
  | some _ => none

/-- A list. -/
def list? {α : Type} (read : Json → Option α) : Json → Option (List α)
  | .arr items => items.mapM read
  | _ => none

/-- A list that may be missing. -/
def optionalList? {α : Type} (read : Json → Option α) : Option Json → Option (List α)
  | none => some []
  | some v => list? read v

/-- A timestamp. -/
def timestamp? (v : Json) : Option Timestamp :=
  (string? v).bind fun s => Timestamp.read? s.toList

/-- A location. -/
def location? (v : Json) : Option Location := do
  match ← record? ["path", "line"] v with
  | [some path, some line] => return ⟨⟨← string? path⟩, ← count? line⟩
  | _ => none

/-- A complaint. -/
def complaint? (v : Json) : Option Complaint := do
  match ← record? ["location", "key", "check", "message", "related"] v with
  | [some location, key, some check, some message, related] =>
    return ⟨← location? location, ← optionalString? key, ← string? check, ← string? message,
      ← optionalList? location? related⟩
  | _ => none

/-- The counts. -/
def summary? (v : Json) : Option Summary := do
  match ← record? ["bibliographies_parsed", "entries_parsed", "documents_scanned",
    "citations_found", "checks_run", "units_suppressed", "complaints_total", "complaints_emitted",
    "truncated_reason"] v with
  | [some a, some b, some c, some d, some e, some f, some g, some h, reason] =>
    return ⟨← count? a, ← count? b, ← count? c, ← count? d, ← count? e, ← count? f, ← count? g,
      ← count? h, ← optionalString? reason⟩
  | _ => none

/-- The tool. -/
def tool? (v : Json) : Option Tool := do
  match ← record? ["name", "version"] v with
  | [some name, some version] => return ⟨← string? name, ← string? version⟩
  | _ => none

/-- The report that a value denotes. -/
def ofJson? (v : Json) : Option Report := do
  match ← record? ["schema", "tool", "started_at", "finished_at", "summary", "complaints"] v with
  | [some schema, some tool, some started, some finished, some summary, some complaints] =>
    return ⟨← string? schema, ← tool? tool, ← timestamp? started, ← timestamp? finished,
      ← summary? summary, ← list? complaint? complaints⟩
  | _ => none

/-- The report that a text denotes. -/
def read? (text : String) : Option Report :=
  (Json.parse? text).bind ofJson?

end BibAudit.Report
