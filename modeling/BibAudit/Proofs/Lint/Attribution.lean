/-
# BibAudit.Proofs.Lint.Attribution — where complaints point, and whose key they carry.

A run on files that were read complains about lines of these files only.  In a bibliography file a
complaint carries the key of the entry at its line, and carries none exactly where there is no entry.
That holds of complaints made while reading and of those of all checks, whatever is selected,
suppressed, probed for or cut off.
-/
import BibAudit.Proofs.Bib.Merge
import BibAudit.Proofs.Lint.Tally
import BibAudit.Proofs.Tex.Scan

namespace BibAudit.Lint

open Session (Source)

variable {bibs docs : List Source} {input : LintInput} {policy : Policy} {e : Entry}
  {c : Complaint} {l : Location}

/-! ## Marks, citations and words are lines of files -/

theorem entries_eq (hr : input.ReadFrom bibs docs) :
    input.bibliography.entries = (Bib.readAll bibs).entries := by
  rw [hr.bibliography]
  rfl

theorem hasLine_of_marks (hr : input.ReadFrom bibs docs) (he : e ∈ input.bibliography.entries)
    (hm : e.Marks l) : ∃ s ∈ bibs, s.HasLine l := by
  rw [entries_eq hr] at he
  obtain ⟨s, hs, -, hwell, hlines⟩ := Bib.mem_readAll_entries he
  exact ⟨s, hs, hlines l (hwell.spans_of_marks hm)⟩

theorem hasLine_of_citation (hr : input.ReadFrom bibs docs) {citations : Citations} {key : String}
    (hc : input.citations = some citations) (hp : citations.places.Holds key l) :
    ∃ s ∈ docs, s.HasLine l := by
  rcases hr.citations with hnone | hsome
  · rw [hnone] at hc
    cases hc
  · obtain rfl := Option.some.inj (hsome.symm.trans hc)
    obtain ⟨citation, hmem, heq⟩ := List.mem_map.mp (Groups.holds_ofList.mp hp)
    obtain ⟨s, hs, hmem⟩ := List.mem_flatMap.mp hmem
    obtain ⟨-, rfl⟩ := Prod.mk.inj heq
    exact ⟨s, hs, Tex.citation_bounds hmem⟩

theorem hasLine_of_word (hr : input.ReadFrom bibs docs) {d : Document} {w : Word}
    (hd : d ∈ input.documents) (hw : w ∈ d.words) : ∃ s ∈ docs, s.HasLine ⟨d.path, w.line⟩ := by
  rw [hr.documents] at hd
  obtain ⟨s, hs, rfl⟩ := List.mem_map.mp hd
  exact ⟨s, hs, rfl, Tex.word_bounds hw⟩

/-! ## All complaints of a run -/

/-- Lines that a complaint points at, the related ones included. -/
def pointsAt (c : Complaint) : List Location :=
  c.location :: c.related

/-- What a check raises is on lines of bibliographies and has an entry's key, or is on a line of a
document alone. -/
theorem raised_lines (hr : input.ReadFrom bibs docs)
    (h : Raised (contextOf input policy) input.documents c) :
    ((∀ l ∈ pointsAt c, ∃ s ∈ bibs, s.HasLine l) ∧ c.AnchoredIn input.bibliography.entries) ∨
      ∀ l ∈ pointsAt c, ∃ s ∈ docs, s.HasLine l := by
  cases h with
  | ofEntry e he key marks related =>
      have hspans : e.spans c.location = true := by
        have hread : e ∈ (Bib.readAll bibs).entries := entries_eq hr ▸ he
        obtain ⟨-, -, -, hwell, -⟩ := Bib.mem_readAll_entries hread
        exact hwell.spans_of_marks marks
      refine .inl ⟨?_, .inl ⟨e, he, hspans, key⟩⟩
      intro l hl
      rcases List.mem_cons.mp hl with rfl | hl
      · exact hasLine_of_marks hr he marks
      · obtain ⟨f, hf, hmark⟩ := related l hl
        exact hasLine_of_marks hr hf hmark
  | ofCitation citations hc key place related =>
      refine .inr ?_
      intro l hl
      rw [pointsAt, related, List.mem_singleton] at hl
      rw [hl]
      exact hasLine_of_citation hr hc place
  | ofWord d hd w hw location related =>
      refine .inr ?_
      intro l hl
      rw [pointsAt, related, List.mem_singleton] at hl
      rw [hl, location]
      exact hasLine_of_word hr hd hw

theorem complaint_lines (hr : input.ReadFrom bibs docs) (hb : (bibs.map Source.path).Nodup)
    (hc : c ∈ allComplaints input policy) :
    ((∀ l ∈ pointsAt c, ∃ s ∈ bibs, s.HasLine l) ∧ c.AnchoredIn input.bibliography.entries) ∨
      ∀ l ∈ pointsAt c, ∃ s ∈ docs, s.HasLine l := by
  -- Complaints made while reading never refer to further lines.
  rcases mem_allComplaints.mp hc with hc | hc
  · rw [hr.parseComplaints] at hc
    obtain ⟨s, hs, hline, -, hrelated⟩ := Bib.mem_readAll_complaints hc
    refine .inl ⟨?_, ?_⟩
    · intro l hl
      rw [pointsAt, hrelated, List.mem_singleton] at hl
      rw [hl]
      exact ⟨s, hs, hline⟩
    · rw [entries_eq hr]
      exact Bib.readAll_anchored hb hc
  · obtain ⟨check, -, hc⟩ := mem_tally.mp hc
    exact raised_lines hr (raised_of_mem_runCheck hc)

/-- Every line that a complaint points at is there.  In a bibliography file the key of a complaint is
that of the entry at its line, and missing exactly if no entry has the line. -/
theorem evaluate_attributes (policy : Policy) (hr : input.ReadFrom bibs docs)
    (hb : (bibs.map Source.path).Nodup) (hd : ∀ d ∈ docs, ∀ b ∈ bibs, d.path ≠ b.path) :
    ∀ c ∈ (evaluate input policy).complaints,
      (∀ l ∈ c.location :: c.related, ∃ s ∈ bibs ++ docs, s.HasLine l) ∧
      ∀ b ∈ bibs, c.location.path = b.path →
        (∀ k, c.key = some k ↔
          ∃ e, input.bibliography.entryAt? c.location = some e ∧ e.key = k) ∧
        (c.key = none ↔ ∀ e ∈ input.bibliography.entries, e.spans c.location = false) := by
  intro c hc
  rw [evaluate_complaints] at hc
  have hplaced : Placed (Bib.readAll bibs).entries := Bib.readAll_placed hb
  rcases complaint_lines hr hb (List.mem_of_mem_take hc) with ⟨hlines, hanchored⟩ | hlines
  · refine ⟨?_, ?_⟩
    · intro l hl
      obtain ⟨s, hs, hline⟩ := hlines l hl
      exact ⟨s, List.mem_append_left _ hs, hline⟩
    · intro b _ _
      rw [entries_eq hr] at hanchored ⊢
      have hkey := hplaced.key_eq hanchored
      rw [← hr.bibliography] at hkey
      refine ⟨?_, ?_⟩
      · intro k
        rw [hkey, Option.map_eq_some_iff]
      · rw [hkey, Option.map_eq_none_iff, hr.bibliography]
        exact entryAt?_eq_none_iff
  · refine ⟨?_, ?_⟩
    · intro l hl
      obtain ⟨s, hs, hline⟩ := hlines l hl
      exact ⟨s, List.mem_append_right _ hs, hline⟩
    · intro b hmem hpath
      -- The complaint would be in a document and in a bibliography.
      obtain ⟨s, hs, hline⟩ := hlines c.location List.mem_cons_self
      exact absurd (hline.1.symm.trans hpath) (hd s hs b hmem)

/-- An entry that another one of the same key cuts off, and a citation of neither. -/
def sampleBibs : List Source :=
  [⟨⟨"refs.bib"⟩, "@misc\x7bknuth,\n  year = 1984,\n@misc\x7bknuth,\n  year = 1985\n\x7d\n"⟩]

/-- A document whose second line cites something. -/
def sampleDocs : List Source :=
  [⟨⟨"talk.tex"⟩, "As shown\nin \\cite\x7blamport\x7d.\n"⟩]

/-- All checks, on all entries. -/
def samplePolicy : Policy := ⟨fun _ => true, true, false, 100⟩

theorem evaluate_attributes_sample :
    (sampleBibs.map Source.path).Nodup ∧
      (∀ d ∈ sampleDocs, ∀ b ∈ sampleBibs, d.path ≠ b.path) ∧
      (evaluate (Session.inputOf sampleBibs sampleDocs none) samplePolicy).summary.complaintsTotal =
        10 ∧
      ∀ c ∈ (evaluate (Session.inputOf sampleBibs sampleDocs none) samplePolicy).complaints,
        (∀ l ∈ c.location :: c.related, ∃ s ∈ sampleBibs ++ sampleDocs, s.HasLine l) ∧
        ∀ b ∈ sampleBibs, c.location.path = b.path →
          (∀ k, c.key = some k ↔
            ∃ e, (Session.inputOf sampleBibs sampleDocs none).bibliography.entryAt? c.location =
              some e ∧ e.key = k) ∧
          (c.key = none ↔
            ∀ e ∈ (Session.inputOf sampleBibs sampleDocs none).bibliography.entries,
              e.spans c.location = false) := by
  refine ⟨by decide, by decide, ?_, ?_⟩
  · rw [evaluate_total, allComplaints, Complaint.length_sort]
    decide +kernel
  · exact evaluate_attributes samplePolicy (Session.readFrom_inputOf _ _ none) (by decide)
      (by decide)

end BibAudit.Lint
