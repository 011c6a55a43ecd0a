/-
# BibAudit.Proofs.Bib.Merge — several files read into one bibliography.

Entries of different files lie in different files, so if no two files share a path then no two
entries of the whole share a line, and every complaint has the key of the entry at its line.
-/
import BibAudit.Proofs.Bib.Span
import BibAudit.Session

namespace BibAudit

/-- The location is a line of the file. -/
def Session.Source.HasLine (s : Session.Source) (l : Location) : Prop :=
  l.path = s.path ∧ 1 ≤ l.line ∧ l.line ≤ (Text.lines s.text.toList).length

namespace Bib

open Session (Source)

variable {sources : List Source} {e : Entry} {c : Complaint}

/-- What the files yield, one after the other. -/
def readAll (sources : List Source) : Yield :=
  ⟨sources.flatMap fun s => (read s.path s.text).entries,
    sources.flatMap fun s => (read s.path s.text).complaints⟩

theorem readAll_cons (s : Source) (rest : List Source) :
    readAll (s :: rest) = read s.path s.text ++ readAll rest := rfl

/-- Every entry is an entry of one of the files, on lines of that file. -/
theorem mem_readAll_entries (he : e ∈ (readAll sources).entries) :
    ∃ s ∈ sources, e.path = s.path ∧ e.WellPlaced ∧ ∀ l, e.spans l = true → s.HasLine l := by
  obtain ⟨s, hs, he⟩ := List.mem_flatMap.mp he
  obtain ⟨hpath, hfirst, hfinal, hwell⟩ := (read_sound s.path s.text).entries e he
  refine ⟨s, hs, hpath, hwell, ?_⟩
  intro l hl
  obtain ⟨hlpath, hline, hend⟩ := Entry.spans_iff.mp hl
  exact ⟨hlpath.symm.trans hpath, by omega, by omega⟩

theorem mem_readAll_complaints (hc : c ∈ (readAll sources).complaints) :
    ∃ s ∈ sources, s.HasLine c.location ∧ c.check = Complaint.parseError ∧ c.related = [] := by
  obtain ⟨s, hs, hc⟩ := List.mem_flatMap.mp hc
  have hsound := read_sound s.path s.text
  exact ⟨s, hs, hsound.complaints c hc, hsound.origin c hc⟩

/-- An entry of the other files is in another file. -/
theorem path_ne_of_mem_readAll {s : Source} {rest : List Source}
    (hn : ((s :: rest).map Source.path).Nodup) (he : e ∈ (readAll rest).entries) :
    e.path ≠ s.path := by
  obtain ⟨t, ht, hpath, -⟩ := mem_readAll_entries he
  rw [List.map_cons, List.nodup_cons] at hn
  intro heq
  exact hn.1 (heq ▸ hpath ▸ List.mem_map_of_mem ht)

/-- Files under different paths give entries that share no line. -/
theorem readAll_placed (hn : (sources.map Source.path).Nodup) :
    Placed (readAll sources).entries := by
  induction sources with
  | nil => exact ⟨fun e he => absurd he List.not_mem_nil, List.Pairwise.nil⟩
  | cons s rest ih =>
      have hrest : (rest.map Source.path).Nodup := (List.nodup_cons.mp hn).2
      have hsound := read_sound s.path s.text
      rw [readAll_cons]
      refine hsound.placed.append (ih hrest) ?_
      intro e he f hf heq
      have hpath : e.path = s.path := (hsound.entries e he).1
      exact path_ne_of_mem_readAll hn hf (heq.symm.trans hpath)

/-- Files under different paths give complaints that have the key of the entry at their line. -/
theorem readAll_anchored (hn : (sources.map Source.path).Nodup)
    (hc : c ∈ (readAll sources).complaints) : c.AnchoredIn (readAll sources).entries := by
  induction sources with
  | nil => exact absurd hc List.not_mem_nil
  | cons s rest ih =>
      have hsound := read_sound s.path s.text
      have hnotin : s.path ∉ rest.map Source.path := (List.nodup_cons.mp hn).1
      rw [readAll_cons] at hc ⊢
      rcases List.mem_append.mp hc with hc | hc
      -- A complaint is anchored in its own file, and entries of other files do not matter.
      · refine (hsound.anchored c hc).append_right ?_
        intro f hf
        have hpath : c.location.path = s.path := (hsound.complaints c hc).1
        exact Entry.spans_eq_false_of_path_ne
          fun heq => path_ne_of_mem_readAll hn hf (heq.trans hpath)
      · refine (ih (List.nodup_cons.mp hn).2 hc).append_left ?_
        intro e he
        obtain ⟨t, ht, hline, -⟩ := mem_readAll_complaints hc
        have hpath : e.path = s.path := (hsound.entries e he).1
        refine Entry.spans_eq_false_of_path_ne fun heq => hnotin ?_
        have hsame : s.path = t.path := hpath.symm.trans (heq.trans hline.1)
        exact hsame ▸ List.mem_map_of_mem ht

end Bib

/-! ## The input of a run -/

/-- The input is what some bibliographies and documents were read into.  The citations are those of
the documents, or left out. -/
structure LintInput.ReadFrom (bibs docs : List Session.Source) (input : LintInput) : Prop where
  bibliography : input.bibliography = .ofEntries (Bib.readAll bibs).entries
  parseComplaints : input.parseComplaints = (Bib.readAll bibs).complaints
  documents : input.documents = docs.map fun s => Tex.document s.path s.text
  citations : input.citations = none ∨
    input.citations = some (.ofList (docs.flatMap fun s => Tex.citations s.path s.text))

theorem LintInput.ReadFrom.check_of_mem_parseComplaints {bibs docs : List Session.Source}
    {input : LintInput} (h : input.ReadFrom bibs docs) :
    ∀ c ∈ input.parseComplaints, c.check = Complaint.parseError := by
  intro c hc
  rw [h.parseComplaints] at hc
  obtain ⟨s, -, -, hcheck, -⟩ := Bib.mem_readAll_complaints hc
  exact hcheck

/-- A session lints what it read. -/
theorem Session.readFrom_inputOf (bibs docs : List Session.Source) (probe : Option Probe) :
    (inputOf bibs docs probe).ReadFrom bibs docs where
  bibliography := by simp [inputOf, Bib.readAll, List.flatMap_map]
  parseComplaints := by simp [inputOf, Bib.readAll, List.flatMap_map]
  documents := rfl
  citations := by
    rw [inputOf]
    cases docs.isEmpty with
    | true => exact .inl rfl
    | false => exact .inr rfl

end BibAudit
