/-
# BibAudit.Proofs.Lint.Scope — looking at cited entries is linting the cited bibliography.

To look at cited entries only, and to lint a bibliography that has no others, is the same run.  Most
checks see only the entries in scope, and these are the same.  Three things see the whole
bibliography: the check on undefined citations, which asks only for cited keys; the copies that the
check on uncited entries refers to, of which there are none; and the look-up of the entry that a
complaint points into, which has to find the same entry among fewer.
-/
import BibAudit.Proofs.Lint.Tally

namespace BibAudit

/-- The entries whose keys are cited. -/
def Citations.citedIn (citations : Citations) (es : List Entry) : List Entry :=
  es.filter fun e => citations.contains e.key

namespace Lint

variable {es : List Entry} {citations : Citations} {probe : Option Probe} {check : Check}
  {policy : Policy} {documents : List Document} {c : Complaint}

/-- All entries are there, and the cited ones are looked at. -/
def wide (es : List Entry) (citations : Citations) (probe : Option Probe) : Context :=
  ⟨.ofEntries es, some citations, probe, true⟩

/-- Only cited entries are there, and all of them are looked at. -/
def narrow (es : List Entry) (citations : Citations) (probe : Option Probe) : Context :=
  ⟨.ofEntries (citations.citedIn es), some citations, probe, false⟩

theorem entries_wide : (wide es citations probe).entries = citations.citedIn es := rfl

theorem entries_narrow : (narrow es citations probe).entries = citations.citedIn es :=
  List.filter_eq_self.mpr fun _ _ => rfl

/-! ## Checks on the whole bibliography -/

/-- No entry in scope is uncited. -/
theorem uncitedCitations_eq {ctx : Context} (hc : ctx.citations = some citations)
    (he : ctx.entries = citations.citedIn es) : Checks.uncitedCitations ctx = .ok [] := by
  have hnone : ctx.entries.filter (fun e => !citations.contains e.key) = [] := by
    rw [List.filter_eq_nil_iff, he]
    intro e hmem
    have hcited : citations.contains e.key = true := (List.mem_filter.mp hmem).2
    rw [hcited]
    decide
  simp only [Checks.uncitedCitations, hc, hnone]
  rfl

/-- A cited key is defined by some entry exactly if it is defined by a cited one. -/
theorem hasKey_citedIn {key : String} (h : citations.contains key = true) :
    (Bibliography.ofEntries (citations.citedIn es)).hasKey key =
      (Bibliography.ofEntries es).hasKey key := by
  rw [Bibliography.hasKey_ofEntries, Bibliography.hasKey_ofEntries, Bool.eq_iff_iff,
    List.any_eq_true, List.any_eq_true]
  constructor
  · rintro ⟨e, he, hkey⟩
    exact ⟨e, (List.mem_filter.mp he).1, hkey⟩
  · rintro ⟨e, he, hkey⟩
    obtain rfl : key = e.key := by simpa using hkey
    exact ⟨e, List.mem_filter.mpr ⟨he, h⟩, hkey⟩

theorem undefinedCitations_scope :
    Checks.undefinedCitations (wide es citations probe) =
      Checks.undefinedCitations (narrow es citations probe) := by
  -- Keys that are looked up here are cited, so leaving out uncited entries is not noticed.
  refine congrArg Except.ok ?_
  rw [List.flatMap_def, List.flatMap_def]
  refine congrArg List.flatten (List.map_congr_left ?_)
  rintro ⟨key, locations⟩ hgroup
  have hcited : citations.contains key = true := Groups.has_of_mem hgroup
  have hkey : (narrow es citations probe).bibliography.hasKey key =
      (wide es citations probe).bibliography.hasKey key := hasKey_citedIn hcited
  simp only [hkey]

theorem collection_scope {run : Context → Findings} (h : check.body = .collection run) :
    run (wide es citations probe) = run (narrow es citations probe) := by
  have hentries : (wide es citations probe).entries = (narrow es citations probe).entries :=
    entries_wide.trans entries_narrow.symm
  cases check with
  | duplicateEntries =>
      cases h
      rw [Checks.duplicateEntries, Checks.duplicateEntries, hentries]
  | identicalTitles =>
      cases h
      rw [Checks.identicalTitles, Checks.identicalTitles, hentries]
  | uncitedCitations =>
      cases h
      rw [uncitedCitations_eq rfl entries_wide, uncitedCitations_eq rfl entries_narrow]
  | undefinedCitations =>
      cases h
      exact undefinedCitations_scope
  | _ => cases h

/-! ## The entry that a complaint points into -/

/-- An entry in scope is found at its lines among all entries and among those in scope, and nothing
is found at the places of citations. -/
theorem entryAt?_scope (hp : Placed es)
    (hl : ∀ key l, citations.places.Holds key l → ∀ e ∈ es, e.spans l = false)
    (h : (wide es citations probe).Found check c) :
    (Bibliography.ofEntries es).entryAt? c.location =
      (Bibliography.ofEntries (citations.citedIn es)).entryAt? c.location := by
  cases h with
  | ofEntry e he about related =>
      -- The entry is cited, so it is there in both bibliographies, and alone on its lines.
      have hcited : e ∈ citations.citedIn es := he
      have hmem : e ∈ es := (List.mem_filter.mp hcited).1
      have hspans : e.spans c.location = true := (hp.each e hmem).spans_of_marks about.marks
      have hplaced : Placed (citations.citedIn es) := hp.filter _
      rw [hp.entryAt?_eq hmem hspans, hplaced.entryAt?_eq hcited hspans]
  | ofCitation key cs hc place name cited related =>
      obtain rfl : citations = cs := Option.some.inj hc
      have hnone : ∀ e ∈ es, e.spans c.location = false := hl key c.location place
      rw [entryAt?_eq_none_iff.mpr hnone, entryAt?_eq_none_iff.mpr]
      intro e he
      exact hnone e (List.mem_filter.mp he).1

theorem onCollection_scope {run : Context → Findings} (hb : check.body = .collection run)
    (hp : Placed es) (hl : ∀ key l, citations.places.Holds key l → ∀ e ∈ es, e.spans l = false) :
    onCollection policy (wide es citations probe) check run =
      onCollection policy (narrow es citations probe) check run := by
  obtain ⟨cs, hgives, hcs⟩ := collection_findings hb (wide es citations probe)
  have hhidden : ∀ c ∈ cs, isHidden policy (wide es citations probe) check c =
      isHidden policy (narrow es citations probe) check c := by
    intro c hc
    have hsame := entryAt?_scope hp hl (hcs c hc)
    show (policy.honorSuppressions &&
        ((Bibliography.ofEntries es).entryAt? c.location).any fun e => e.isSuppressed check.name) =
      (policy.honorSuppressions &&
        ((Bibliography.ofEntries (citations.citedIn es)).entryAt? c.location).any
          fun e => e.isSuppressed check.name)
    rw [hsame]
  have hkept : cs.filter (fun c => !isHidden policy (wide es citations probe) check c) =
      cs.filter fun c => !isHidden policy (narrow es citations probe) check c := by
    refine List.filter_congr ?_
    intro c hc
    rw [hhidden c hc]
  rw [onCollection, onCollection, ← collection_scope hb, hgives]
  simp only [hkept, List.filter_congr hhidden]

/-! ## Whole runs -/

theorem runCheck_scope (hp : Placed es)
    (hl : ∀ key l, citations.places.Holds key l → ∀ e ∈ es, e.spans l = false) :
    runCheck policy (wide es citations probe) documents check =
      runCheck policy (narrow es citations probe) documents check := by
  rw [runCheck, runCheck]
  cases hb : check.body with
  | entry run =>
      have hsame : onEntry policy (wide es citations probe) check run =
          onEntry policy (narrow es citations probe) check run := by
        funext e
        have hrun : run e (wide es citations probe) = run e (narrow es citations probe) :=
          entry_context hb rfl
        rw [onEntry, onEntry, hrun]
      show Tally.sum ((wide es citations probe).entries.map _) =
        Tally.sum ((narrow es citations probe).entries.map _)
      rw [entries_wide, entries_narrow, hsame]
  | collection run => exact onCollection_scope hb hp hl
  | window run => rfl

/-- To look at cited entries only is to lint the bibliography that has no others: the complaints are
the same, and so is what is counted about them. -/
theorem evaluate_onlyCited (policy : Policy) (citations : Citations) (documents : List Document)
    (probe : Option Probe) (parsed : List Complaint) (hp : Placed es)
    (hl : ∀ group ∈ citations.places, ∀ l ∈ group.2, ∀ e ∈ es, e.spans l = false) :
    let cited := evaluate ⟨.ofEntries es, some citations, documents, probe, parsed⟩
      { policy with onlyCited := true }
    let kept := evaluate
      ⟨.ofEntries (es.filter fun e => citations.contains e.key), some citations, documents, probe,
        parsed⟩ { policy with onlyCited := false }
    cited.complaints = kept.complaints ∧
      cited.summary.checksRun = kept.summary.checksRun ∧
      cited.summary.unitsSuppressed = kept.summary.unitsSuppressed ∧
      cited.summary.complaintsTotal = kept.summary.complaintsTotal ∧
      cited.summary.complaintsEmitted = kept.summary.complaintsEmitted ∧
      cited.summary.truncatedReason = kept.summary.truncatedReason := by
  intro cited kept
  have hplaces : ∀ key l, citations.places.Holds key l → ∀ e ∈ es, e.spans l = false := by
    rintro key l ⟨locations, hgroup, hmem⟩
    exact hl (key, locations) hgroup l hmem
  have htally : tally ⟨.ofEntries es, some citations, documents, probe, parsed⟩
        { policy with onlyCited := true } =
      tally ⟨.ofEntries (citations.citedIn es), some citations, documents, probe, parsed⟩
        { policy with onlyCited := false } := by
    refine congrArg Tally.sum (List.map_congr_left ?_)
    intro check _
    exact runCheck_scope hp hplaces
  have hall : allComplaints ⟨.ofEntries es, some citations, documents, probe, parsed⟩
        { policy with onlyCited := true } =
      allComplaints ⟨.ofEntries (citations.citedIn es), some citations, documents, probe, parsed⟩
        { policy with onlyCited := false } := by
    rw [allComplaints, allComplaints, htally]
  have hreason := congrArg (fun all : List Complaint =>
    if policy.maxComplaints < all.length then some (truncationReason policy.maxComplaints)
    else none) hall
  refine ⟨?_, rfl, ?_, ?_, ?_, hreason⟩
  · exact congrArg (List.take policy.maxComplaints) hall
  · exact congrArg Tally.suppressed htally
  · exact congrArg List.length hall
  · exact congrArg (fun all => (all.take policy.maxComplaints).length) hall

/-- Two entries of one key, the second of which is left alone by a check, and between them another
one of the same title. -/
def scopedEntries : List Entry :=
  [⟨"misc", "knuth", ⟨"refs.bib"⟩, 1, 2, [("title", ⟨"\x7bA\x7d", 2⟩)], []⟩,
    ⟨"misc", "lamport", ⟨"refs.bib"⟩, 3, 4, [("title", ⟨"\x7bA\x7d", 4⟩)], []⟩,
    ⟨"misc", "knuth", ⟨"refs.bib"⟩, 5, 7, [], [("check-missing-doi", none)]⟩]

/-- One of the keys is cited, and one that no entry has. -/
def scopedCitations : Citations :=
  .ofList [⟨"knuth", ⟨⟨"talk.tex"⟩, 1⟩⟩, ⟨"hoare", ⟨⟨"talk.tex"⟩, 2⟩⟩]

theorem evaluate_onlyCited_scoped :
    Placed scopedEntries ∧
      (∀ group ∈ scopedCitations.places, ∀ l ∈ group.2, ∀ e ∈ scopedEntries,
        e.spans l = false) ∧
      (let cited := evaluate ⟨.ofEntries scopedEntries, some scopedCitations, [], none, []⟩
          ⟨fun _ => true, true, true, 5⟩
        let kept := evaluate
          ⟨.ofEntries (scopedEntries.filter fun e => scopedCitations.contains e.key),
            some scopedCitations, [], none, []⟩ ⟨fun _ => true, true, false, 5⟩
        cited.summary.complaintsTotal = 7 ∧ cited.complaints = kept.complaints ∧
          cited.summary.checksRun = kept.summary.checksRun ∧
          cited.summary.unitsSuppressed = kept.summary.unitsSuppressed ∧
          cited.summary.complaintsTotal = kept.summary.complaintsTotal ∧
          cited.summary.complaintsEmitted = kept.summary.complaintsEmitted ∧
          cited.summary.truncatedReason = kept.summary.truncatedReason) := by
  have hplaced : Placed scopedEntries :=
    ⟨by decide, (by decide : scopedEntries.Pairwise fun a b => a.endLine < b.line).imp
      Entry.apart_of_lt⟩
  have hplaces : ∀ group ∈ scopedCitations.places, ∀ l ∈ group.2, ∀ e ∈ scopedEntries,
      e.spans l = false := by
    decide
  refine ⟨hplaced, hplaces, ?_, ?_⟩
  · rw [evaluate_total, allComplaints, Complaint.length_sort]
    decide +kernel
  · exact evaluate_onlyCited ⟨fun _ => true, true, true, 5⟩ scopedCitations [] none [] hplaced
      hplaces

end Lint

end BibAudit
