/-
# BibAudit.Proofs.Report.RoundTrip — written reports are read again.

Writing leaves out a key, related lines and a reason where there are none, and reading takes a member
that is missing for none.  Strings come back character by character and paths are not put into another
spelling, so a report is the one it was, as long as its numbers fit 32 bits.
-/
import BibAudit.Proofs.Json.RoundTrip
import BibAudit.Proofs.Timestamp
import BibAudit.Report.Json

namespace BibAudit

/-! ## Numbers -/

/-- All counts. -/
def Summary.counts (s : Summary) : List Nat :=
  [s.bibliographiesParsed, s.entriesParsed, s.documentsScanned, s.citationsFound, s.checksRun,
    s.unitsSuppressed, s.complaintsTotal, s.complaintsEmitted]

/-- The lines that a complaint points at. -/
def Complaint.lines (c : Complaint) : List Nat :=
  c.location.line :: c.related.map (·.line)

namespace Report

/-- All numbers of a report: its counts, and the lines of its complaints. -/
def numbers (r : Report) : List Nat :=
  r.summary.counts ++ r.complaints.flatMap Complaint.lines

open Json (Legible)

/-! ## Values of the written form -/

theorem legible_memberIfSome (name : String) (value : Option String) :
    ∀ m ∈ memberIfSome name value, Legible m.2 := by
  intro m hm
  obtain ⟨s, -, rfl⟩ := List.mem_map.mp hm
  exact .str s

theorem legible_list {α : Type} {write : α → Json} (h : ∀ x, Legible (write x)) (xs : List α) :
    Legible (.arr (xs.map write)) := by
  refine .arr fun v hv => ?_
  obtain ⟨x, -, rfl⟩ := List.mem_map.mp hv
  exact h x

theorem legible_locationJson (l : Location) : Legible (locationJson l) := by
  refine .obj (List.forall_mem_cons.mpr ⟨.str _, ?_⟩)
  exact List.forall_mem_singleton.mpr (.int _)

theorem legible_complaintJson (c : Complaint) : Legible (complaintJson c) := by
  have hrelated : ∀ m ∈ if c.related.isEmpty then []
      else [("related", Json.arr (c.related.map locationJson))], Legible m.2 := by
    split
    · simp
    · exact List.forall_mem_singleton.mpr (legible_list legible_locationJson c.related)
  refine .obj ?_
  simp only [List.forall_mem_append, List.forall_mem_singleton, List.forall_mem_cons]
  exact ⟨⟨⟨legible_locationJson c.location, legible_memberIfSome "key" c.key⟩,
    .str c.check, .str c.message⟩, hrelated⟩

theorem legible_summaryJson (s : Summary) : Legible (summaryJson s) := by
  refine .obj (List.forall_mem_append.mpr ⟨?_, legible_memberIfSome _ s.truncatedReason⟩)
  simp only [List.forall_mem_cons]
  exact ⟨.int _, .int _, .int _, .int _, .int _, .int _, .int _, .int _, by simp⟩

/-- Whatever a report holds, its written form has no number but integers. -/
theorem legible_toJson (r : Report) : Legible (toJson r) := by
  have htool : Legible (.obj [("name", .str r.tool.name), ("version", .str r.tool.version)]) := by
    refine .obj (List.forall_mem_cons.mpr ⟨.str _, ?_⟩)
    exact List.forall_mem_singleton.mpr (.str _)
  refine .obj ?_
  simp only [List.forall_mem_cons]
  exact ⟨.str _, htool, .str _, .str _, legible_summaryJson r.summary,
    legible_list legible_complaintJson r.complaints, by simp⟩

/-! ## Members of the written form -/

theorem record?_locationJson (l : Location) : record? ["path", "line"] (locationJson l) =
    some [some (.str l.path.text), some (.nat l.line)] := by
  simp [record?, locationJson, Json.get?, List.lookup_cons]

theorem record?_complaintJson (c : Complaint) :
    record? ["location", "key", "check", "message", "related"] (complaintJson c) =
      some [some (locationJson c.location), c.key.map .str, some (.str c.check),
        some (.str c.message),
        if c.related.isEmpty then none else some (.arr (c.related.map locationJson))] := by
  cases hkey : c.key <;> cases hrelated : c.related <;>
    simp [record?, complaintJson, memberIfSome, Json.get?, List.lookup_cons, hkey, hrelated]

theorem record?_summaryJson (s : Summary) :
    record? ["bibliographies_parsed", "entries_parsed", "documents_scanned", "citations_found",
      "checks_run", "units_suppressed", "complaints_total", "complaints_emitted",
      "truncated_reason"] (summaryJson s) =
      some (s.counts.map (fun n => some (Json.nat n)) ++ [s.truncatedReason.map .str]) := by
  cases hreason : s.truncatedReason <;>
    simp [record?, summaryJson, Summary.counts, memberIfSome, Json.get?, List.lookup_cons, hreason]

theorem record?_toJson (r : Report) :
    record? ["schema", "tool", "started_at", "finished_at", "summary", "complaints"] (toJson r) =
      some [some (.str r.schema),
        some (.obj [("name", .str r.tool.name), ("version", .str r.tool.version)]),
        some (.str r.startedAt.text), some (.str r.finishedAt.text), some (summaryJson r.summary),
        some (.arr (r.complaints.map complaintJson))] := by
  simp [record?, toJson, Json.get?, List.lookup_cons]

/-! ## Parts of a report -/

theorem count?_nat {n : Nat} (h : n < Text.countLimit) : count? (.nat n) = some n :=
  if_pos h

/-- A member that is missing where there is none, and holds a string otherwise. -/
theorem optionalString?_map (s : Option String) : optionalString? (s.map .str) = some s := by
  cases s <;> rfl

/-- A list is read if its items are. -/
theorem list?_map {α : Type} {read : Json → Option α} {write : α → Json} {xs : List α}
    (h : ∀ x ∈ xs, read (write x) = some x) : list? read (.arr (xs.map write)) = some xs := by
  rw [list?]
  induction xs with
  | nil => rfl
  | cons x xs ih =>
      obtain ⟨hx, hxs⟩ := List.forall_mem_cons.mp h
      simp [hx, ih hxs]

/-- A list that is left out where it is empty. -/
theorem optionalList?_map {α : Type} {read : Json → Option α} {write : α → Json} {xs : List α}
    (h : ∀ x ∈ xs, read (write x) = some x) :
    optionalList? read (if xs.isEmpty then none else some (.arr (xs.map write))) = some xs := by
  cases xs with
  | nil => rfl
  | cons x xs => exact list?_map h

theorem timestamp?_text (t : Timestamp) : timestamp? (.str t.text) = some t := by
  rw [timestamp?, string?, Option.bind_some, Timestamp.text, String.toList_ofList,
    Timestamp.read?_chars]

theorem location?_locationJson {l : Location} (h : l.line < Text.countLimit) :
    location? (locationJson l) = some l := by
  rw [location?, record?_locationJson]
  simp [string?, count?_nat h]

theorem complaint?_complaintJson {c : Complaint} (h : ∀ n ∈ c.lines, n < Text.countLimit) :
    complaint? (complaintJson c) = some c := by
  obtain ⟨hline, hlines⟩ := List.forall_mem_cons.mp h
  have hrelated : ∀ l ∈ c.related, location? (locationJson l) = some l := by
    intro l hl
    exact location?_locationJson (hlines l.line (List.mem_map_of_mem hl))
  rw [complaint?, record?_complaintJson]
  simp only [Option.bind_eq_bind, Option.bind_some, location?_locationJson hline,
    optionalString?_map, optionalList?_map hrelated, string?]
  rfl

theorem summary?_summaryJson {s : Summary} (h : ∀ n ∈ s.counts, n < Text.countLimit) :
    summary? (summaryJson s) = some s := by
  have hcount : ∀ n ∈ s.counts, count? (.nat n) = some n := fun n hn => count?_nat (h n hn)
  simp only [Summary.counts, List.forall_mem_cons] at hcount
  obtain ⟨hb, he, hd, hc, hr, hu, ht, hm, -⟩ := hcount
  rw [summary?, record?_summaryJson]
  simp only [Summary.counts, List.map_cons, List.map_nil, List.cons_append, List.nil_append,
    Option.bind_eq_bind, Option.bind_some, hb, he, hd, hc, hr, hu, ht, hm, optionalString?_map]
  rfl

theorem ofJson?_toJson {r : Report} (h : ∀ n ∈ r.numbers, n < Text.countLimit) :
    ofJson? (toJson r) = some r := by
  obtain ⟨hcounts, hlines⟩ := List.forall_mem_append.mp h
  have hcomplaints : ∀ c ∈ r.complaints, complaint? (complaintJson c) = some c := by
    intro c hc
    exact complaint?_complaintJson fun n hn => hlines n (List.mem_flatMap.mpr ⟨c, hc, hn⟩)
  have htool : tool? (.obj [("name", .str r.tool.name), ("version", .str r.tool.version)]) =
      some r.tool := rfl
  rw [ofJson?, record?_toJson]
  simp only [Option.bind_eq_bind, Option.bind_some, string?, htool, timestamp?_text,
    summary?_summaryJson hcounts, list?_map hcomplaints]
  rfl

/-- A report whose numbers fit 32 bits is read again from its JSON form as it was. -/
theorem read?_renderJson {r : Report} (h : ∀ n ∈ r.numbers, n < Text.countLimit) :
    Report.read? r.renderJson = some r := by
  rw [Report.read?, renderJson, Json.parse?_pretty (legible_toJson r), Option.bind_some,
    ofJson?_toJson h]

/-- A cut report with a complaint that has everything and one that has nothing to leave out: line
breaks, quotes, control characters and one beyond the first plane, a path with a backslash, and times
with a fraction and a distance from UTC. -/
def mixedReport : Report where
  schema := currentSchema
  tool := currentTool
  startedAt := ⟨2024, 2, 29, 23, 59, 59, 120000000, -330, by decide, by decide, by decide⟩
  finishedAt := ⟨2024, 3, 1, 5, 30, 0, 0, 0, by decide, by decide, Timestamp.epoch.offset_valid⟩
  summary := ⟨1, 2, 0, 4294967295, 17, 0, 3, 2, some "limit of 2"⟩
  complaints :=
    [⟨⟨⟨"./refs\\main.bib"⟩, 4⟩, some "knuth𝔘84", "check-isbn", "bad\t\"checksum\"\n\x01\x7f",
      [⟨⟨"a.bib"⟩, 1⟩, ⟨⟨""⟩, 0⟩]⟩,
    ⟨⟨⟨"-"⟩, 1⟩, none, "parse-error", "", []⟩]

theorem read?_renderJson_mixed :
    (∀ n ∈ mixedReport.numbers, n < Text.countLimit) ∧
      Report.read? mixedReport.renderJson = some mixedReport :=
  ⟨by decide, read?_renderJson (by decide)⟩

end Report

end BibAudit
