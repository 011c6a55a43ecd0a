/-
# BibAudit.Proofs.Lint.Suppression — directives leave out complaints, and do nothing else.

A directive acts in two places: an entry is not handed to a check that it suppresses, and complaints
of checks on the whole bibliography are dropped if they point into such an entry.  Both come to the
same as running everything and then leaving out complaints by their location.  Complaints made while
reading and complaints about documents are never left out.
-/
import BibAudit.Proofs.Bib.Merge
import BibAudit.Proofs.Lint.Tally

namespace BibAudit

/-- The choices, directives being heard. -/
def Policy.honoring (policy : Policy) : Policy :=
  { policy with honorSuppressions := true }

/-- The choices, directives being ignored. -/
def Policy.ignoring (policy : Policy) : Policy :=
  { policy with honorSuppressions := false }

namespace Lint

open Session (Source)

variable {policy : Policy} {ctx : Context} {documents : List Document} {check : Check}
  {c : Complaint} {e : Entry} {es : List Entry} {input : LintInput}

/-- Some entry has the location of the complaint among its lines and suppresses the check that the
complaint comes from.  Complaints made while reading come from no check. -/
def silenced (b : Bibliography) (c : Complaint) : Bool :=
  c.check != Complaint.parseError &&
    b.entries.any fun e => e.spans c.location && e.isSuppressed (producer c)

theorem silenced_of_notParsed (b : Bibliography) (h : c.check ≠ Complaint.parseError) :
    silenced b c = b.entries.any fun e => e.spans c.location && e.isSuppressed (producer c) := by
  have hcheck : (c.check != Complaint.parseError) = true := by simpa using h
  rw [silenced, hcheck, Bool.true_and]

/-- Whether a complaint about an entry is silenced is up to that entry. -/
theorem silenced_ofEntry (hp : Placed es) (he : e ∈ es) (h : OfEntry e check c) :
    silenced (.ofEntries es) c = e.isSuppressed check.name := by
  have hspans : e.spans c.location = true := (hp.each e he).spans_of_marks h.marks
  rw [silenced_of_notParsed _ h.notParsed, h.producer]
  show (es.any fun f => f.spans c.location && f.isSuppressed check.name) = _
  rw [← hp.any_entryAt?, hp.entryAt?_eq he hspans, Option.any_some]

theorem silenced_of_outside (h : ∀ e ∈ es, e.spans c.location = false) :
    silenced (.ofEntries es) c = false := by
  have hnone : (es.any fun e => e.spans c.location && e.isSuppressed (producer c)) = false := by
    rw [List.any_eq_false]
    intro e he
    simp [h e he]
  show (c.check != Complaint.parseError &&
    es.any fun e => e.spans c.location && e.isSuppressed (producer c)) = false
  rw [hnone, Bool.and_false]

/-! ## Checks on entries -/

/-- To skip an entry is to leave out what the check would find there. -/
theorem onEntry_honoring {run : Entry → Context → Findings} (hb : check.body = .entry run)
    (hp : Placed es) (he : e ∈ es) :
    (onEntry policy.honoring ctx check run e).complaints =
      (onEntry policy.ignoring ctx check run e).complaints.filter
        fun c => !silenced (.ofEntries es) c := by
  have hsame : ∀ c ∈ (onEntry policy.ignoring ctx check run e).complaints,
      silenced (.ofEntries es) c = e.isSuppressed check.name :=
    fun c hc => silenced_ofEntry hp he (ofEntry_of_mem_onEntry hb hc)
  by_cases hs : e.isSuppressed check.name = true
  · have hskip : onEntry policy.honoring ctx check run e = ⟨[], 1⟩ := by
      rw [onEntry, Policy.honoring, hs]
      rfl
    -- Everything that the check would find is at this entry, and so is silenced.
    rw [hskip]
    symm
    rw [List.filter_eq_nil_iff]
    intro c hc
    rw [hsame c hc, hs]
    decide
  · have hs' : e.isSuppressed check.name = false := by simpa using hs
    have hrun : onEntry policy.honoring ctx check run e =
        onEntry policy.ignoring ctx check run e := by
      rw [onEntry, onEntry, hs', Bool.and_false, Bool.and_false]
    rw [hrun]
    symm
    rw [List.filter_eq_self]
    intro c hc
    rw [hsame c hc, hs']
    rfl

theorem onEntry_ignoring_suppressed (run : Entry → Context → Findings) (e : Entry) :
    (onEntry policy.ignoring ctx check run e).suppressed = 0 := by
  rw [onEntry, Policy.ignoring, Bool.false_and, if_neg Bool.false_ne_true]
  split <;> rfl

/-! ## Checks on the whole bibliography -/

/-- The entry that is looked up for a complaint decides as any entry with that line would. -/
theorem isHidden_honoring (hp : Placed es) (hc : ctx.bibliography = .ofEntries es)
    (h : c.check = check.name) :
    isHidden policy.honoring ctx check c = silenced (.ofEntries es) c := by
  have hnot : c.check ≠ Complaint.parseError := h ▸ name_ne_parseError check
  rw [silenced_of_notParsed _ hnot, producer_eq_name h, isHidden, hc, hp.any_entryAt?]
  rfl

theorem onCollection_honoring {run : Context → Findings} (hb : check.body = .collection run)
    (hp : Placed es) (hc : ctx.bibliography = .ofEntries es) :
    (onCollection policy.honoring ctx check run).complaints =
      (onCollection policy.ignoring ctx check run).complaints.filter
        fun c => !silenced (.ofEntries es) c := by
  obtain ⟨cs, hgives, hcs⟩ := collection_findings hb ctx
  have hall : cs.filter (fun c => !isHidden policy.ignoring ctx check c) = cs := by
    rw [List.filter_eq_self]
    intro c _
    rfl
  have hname : ∀ c ∈ cs, c.check = check.name := fun c hmem => (hcs c hmem).check_eq
  rw [onCollection, onCollection, hgives]
  show cs.filter (fun c => !isHidden policy.honoring ctx check c) =
    (cs.filter fun c => !isHidden policy.ignoring ctx check c).filter _
  rw [hall]
  refine List.filter_congr ?_
  intro c hmem
  rw [isHidden_honoring hp hc (hname c hmem)]

theorem onCollection_ignoring_suppressed (run : Context → Findings) :
    (onCollection policy.ignoring ctx check run).suppressed = 0 := by
  rw [onCollection]
  split
  · next cs _ =>
      show (cs.filter (isHidden policy.ignoring ctx check)).length = 0
      rw [List.length_eq_zero_iff, List.filter_eq_nil_iff]
      intro c _
      exact Bool.false_ne_true
  · rfl

/-! ## Whole runs -/

/-- What is left out of every contribution is left out of all of them. -/
theorem sum_filter {α : Type} {items : List α} {f g : α → Tally} {p : Complaint → Bool}
    (h : ∀ a ∈ items, (f a).complaints = (g a).complaints.filter p) :
    (Tally.sum (items.map f)).complaints = (Tally.sum (items.map g)).complaints.filter p := by
  rw [sum_complaints, sum_complaints, List.flatMap_map, List.flatMap_map, List.filter_flatMap,
    List.flatMap_def, List.flatMap_def, List.map_congr_left h]

theorem runCheck_honoring (hp : Placed es) (hc : ctx.bibliography = .ofEntries es)
    (hd : ∀ d ∈ documents, ∀ e ∈ es, e.path ≠ d.path) :
    (runCheck policy.honoring ctx documents check).complaints =
      (runCheck policy.ignoring ctx documents check).complaints.filter
        fun c => !silenced (.ofEntries es) c := by
  rw [runCheck, runCheck]
  cases hb : check.body with
  | entry run =>
      refine sum_filter ?_
      intro e he
      have hentry : e ∈ es := by
        have hmem := (Context.mem_entries.mp he).1
        rwa [hc] at hmem
      exact onEntry_honoring hb hp hentry
  | collection run => exact onCollection_honoring hb hp hc
  | window run =>
      -- Complaints about words are in no entry, so none of them is silenced.
      symm
      rw [List.filter_eq_self]
      intro c hmem
      obtain ⟨d, hdoc, hmem⟩ := List.mem_flatMap.mp hmem
      obtain ⟨w, -, message, rfl⟩ := spots_of_mem_document hb hmem
      rw [silenced_of_outside fun e he => Entry.spans_eq_false_of_path_ne (hd d hdoc e he)]
      rfl

theorem runCheck_ignoring_suppressed :
    (runCheck policy.ignoring ctx documents check).suppressed = 0 := by
  rw [runCheck]
  cases check.body with
  | entry run =>
      refine sum_suppressed_eq_zero ?_
      intro t ht
      obtain ⟨e, -, rfl⟩ := List.mem_map.mp ht
      exact onEntry_ignoring_suppressed run e
  | collection run => exact onCollection_ignoring_suppressed run
  | window run => rfl

theorem allComplaints_honoring (hp : Placed es) (hb : input.bibliography = .ofEntries es)
    (hr : ∀ c ∈ input.parseComplaints, c.check = Complaint.parseError)
    (hd : ∀ d ∈ input.documents, ∀ e ∈ es, e.path ≠ d.path) :
    allComplaints input policy.honoring =
      (allComplaints input policy.ignoring).filter fun c => !silenced (.ofEntries es) c := by
  have hparsed : input.parseComplaints.filter (fun c => !silenced (.ofEntries es) c) =
      input.parseComplaints := by
    rw [List.filter_eq_self]
    intro c hc
    simp [silenced, hr c hc]
  have hfound : (tally input policy.honoring).complaints =
      (tally input policy.ignoring).complaints.filter fun c => !silenced (.ofEntries es) c :=
    sum_filter fun check _ => runCheck_honoring hp hb hd
  rw [allComplaints, allComplaints, Complaint.filter_sort, List.filter_append, hparsed, hfound]

/-- Directives being heard, the complaints are those of the same run with directives ignored, but for
those that some entry with their line suppresses; and with directives ignored nothing is counted as
suppressed. -/
theorem evaluate_honoring (policy : Policy) {bibs : List Source}
    (hb : input.bibliography = .ofEntries (Bib.readAll bibs).entries)
    (hn : (bibs.map Source.path).Nodup)
    (hr : ∀ c ∈ input.parseComplaints, c.check = Complaint.parseError)
    (hd : ∀ d ∈ input.documents, ∀ b ∈ bibs, d.path ≠ b.path)
    (hm : (evaluate input policy.ignoring).summary.complaintsTotal ≤ policy.maxComplaints) :
    (evaluate input policy.honoring).complaints =
        ((evaluate input policy.ignoring).complaints.filter
          fun c => !silenced input.bibliography c) ∧
      (evaluate input policy.ignoring).summary.unitsSuppressed = 0 := by
  have hpaths : ∀ d ∈ input.documents, ∀ e ∈ (Bib.readAll bibs).entries, e.path ≠ d.path := by
    intro d hdoc e he
    obtain ⟨b, hmem, hpath, -⟩ := Bib.mem_readAll_entries he
    rw [hpath]
    exact (hd d hdoc b hmem).symm
  have hall : allComplaints input policy.honoring =
      (allComplaints input policy.ignoring).filter fun c => !silenced input.bibliography c := by
    rw [hb]
    exact allComplaints_honoring (Bib.readAll_placed hn) hb hr hpaths
  have hfit : (allComplaints input policy.ignoring).length ≤ policy.maxComplaints := hm
  -- Fewer complaints are not cut off either.
  have hfit' : (allComplaints input policy.honoring).length ≤ policy.maxComplaints := by
    rw [hall]
    exact Nat.le_trans (List.length_filter_le _ _) hfit
  constructor
  · rw [evaluate_complaints, evaluate_complaints]
    show (allComplaints input policy.honoring).take policy.maxComplaints =
      ((allComplaints input policy.ignoring).take policy.maxComplaints).filter _
    rw [List.take_of_length_le hfit, List.take_of_length_le hfit', hall]
  · refine sum_suppressed_eq_zero ?_
    intro t ht
    obtain ⟨check, -, rfl⟩ := List.mem_map.mp ht
    exact runCheck_ignoring_suppressed

/-- An entry that is left alone by a check on entries, which fails here, and by one on all of them,
and that the end of the file cuts off. -/
def directedBibs : List Source :=
  [⟨⟨"refs.bib"⟩, "% LINT check-local-copies\n% LINT uncited-citations\n@misc\x7bknuth,\n"⟩]

/-- All checks, on all entries, and no end to complaints that matters. -/
def directedPolicy : Policy := ⟨fun _ => true, true, false, 100⟩

/-- What a session makes of these files. -/
def directedInput : LintInput :=
  Session.inputOf directedBibs [⟨⟨"talk.tex"⟩, "The bit stream."⟩] none

theorem evaluate_honoring_directed :
    directedInput.bibliography = .ofEntries (Bib.readAll directedBibs).entries ∧
      (directedBibs.map Source.path).Nodup ∧
      (∀ c ∈ directedInput.parseComplaints, c.check = Complaint.parseError) ∧
      (∀ d ∈ directedInput.documents, ∀ b ∈ directedBibs, d.path ≠ b.path) ∧
      (evaluate directedInput directedPolicy.ignoring).summary.complaintsTotal = 6 ∧
      (evaluate directedInput directedPolicy.honoring).summary.complaintsTotal = 4 ∧
      (evaluate directedInput directedPolicy.honoring).complaints =
        ((evaluate directedInput directedPolicy.ignoring).complaints.filter
          fun c => !silenced directedInput.bibliography c) ∧
      (evaluate directedInput directedPolicy.ignoring).summary.unitsSuppressed = 0 := by
  have hread := Session.readFrom_inputOf directedBibs [⟨⟨"talk.tex"⟩, "The bit stream."⟩] none
  have hparsed := hread.check_of_mem_parseComplaints
  have hpaths : ∀ d ∈ directedInput.documents, ∀ b ∈ directedBibs, d.path ≠ b.path := by
    decide +kernel
  have htotal : (evaluate directedInput directedPolicy.ignoring).summary.complaintsTotal = 6 := by
    rw [evaluate_total, allComplaints, Complaint.length_sort]
    decide +kernel
  refine ⟨hread.bibliography, by decide, hparsed, hpaths, htotal, ?_, ?_⟩
  · rw [evaluate_total, allComplaints, Complaint.length_sort]
    decide +kernel
  · exact evaluate_honoring directedPolicy hread.bibliography (by decide) hparsed hpaths
      (htotal ▸ (by decide : 6 ≤ 100))

end Lint

end BibAudit
