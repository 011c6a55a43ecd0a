/-
# BibAudit.Proofs.Lint.Independence — checks do not see one another, nor the order of their input.

What a check contributes depends on the check and on what it looks at, not on the other checks that
are selected.  So two sets of checks may be run apart, and their complaints sorted together.  A
contribution is the same up to sequence if documents are given in another order, and so is that of a
check on entries if entries are; as no two complaints tie, the sorted report is the same.

Checks on the whole bibliography are left out where entries are in another order: they name the first
entry of a key or title, and list the others in their order.
-/
import BibAudit.Proofs.Lint.Tally

namespace BibAudit

/-- The checks of both sets. -/
def CheckSet.union (s t : CheckSet) : CheckSet :=
  fun check => s check || t check

/-- No check is in both sets. -/
def CheckSet.Disjoint (s t : CheckSet) : Prop :=
  ∀ check, s check = true → t check = false

/-- The policy with another selection of checks. -/
def Policy.selecting (policy : Policy) (s : CheckSet) : Policy :=
  { policy with selected := s }

/-- The report has the complaints of both reports, sorted together, and counts what both did. -/
structure LintReport.Joins (whole first second : LintReport) : Prop where
  complaints : whole.complaints = Complaint.sort (first.complaints ++ second.complaints)
  checksRun : whole.summary.checksRun = first.summary.checksRun + second.summary.checksRun
  unitsSuppressed : whole.summary.unitsSuppressed =
    first.summary.unitsSuppressed + second.summary.unitsSuppressed

namespace Lint

variable {input : LintInput} {policy : Policy} {ctx : Context} {check : Check}
  {documents documents' : List Document} {es es' : List Entry} {s t : CheckSet}

/-! ## Contributions up to the sequence of complaints -/

/-- The same complaints as often, and as many units taken out. -/
structure Tally.Agrees (a b : Tally) : Prop where
  complaints : a.complaints.Perm b.complaints
  suppressed : a.suppressed = b.suppressed

theorem Tally.Agrees.refl (a : Tally) : a.Agrees a :=
  ⟨.refl _, rfl⟩

theorem sum_append (ts us : List Tally) :
    Tally.sum (ts ++ us) = (Tally.sum ts).append (Tally.sum us) := by
  induction ts with
  | nil =>
      show Tally.sum us = ⟨(Tally.sum us).complaints, 0 + (Tally.sum us).suppressed⟩
      rw [Nat.zero_add]
  | cons t rest ih =>
      rw [List.cons_append, sum_cons, ih, sum_cons]
      simp only [Tally.append, List.append_assoc, Nat.add_assoc]

/-- Contributions may be taken in another order. -/
theorem sum_agrees_of_perm {ts us : List Tally} (h : ts.Perm us) :
    (Tally.sum ts).Agrees (Tally.sum us) where
  complaints := by
    rw [sum_complaints, sum_complaints]
    exact h.flatMap_right _
  suppressed := by
    induction h with
    | nil => rfl
    | cons t _ ih => exact congrArg (t.suppressed + ·) ih
    | swap t u rest => exact Nat.add_left_comm _ _ _
    | trans _ _ ihfirst ihsecond => exact ihfirst.trans ihsecond

/-- Contributions that agree one by one agree in a row. -/
theorem sum_agrees_of_forall {α : Type} {f g : α → Tally} {l : List α}
    (h : ∀ a ∈ l, (f a).Agrees (g a)) : (Tally.sum (l.map f)).Agrees (Tally.sum (l.map g)) := by
  induction l with
  | nil => exact .refl _
  | cons a rest ih =>
      have hfirst := h a List.mem_cons_self
      have hrest := ih fun b hb => h b (List.mem_cons_of_mem a hb)
      exact ⟨hfirst.complaints.append hrest.complaints,
        congrArg₂ (· + ·) hfirst.suppressed hrest.suppressed⟩

/-! ## Single checks -/

/-- A check remembers nothing from one document to the next. -/
theorem runCheck_documents (policy : Policy) (ctx : Context) (check : Check)
    (h : documents.Perm documents') :
    (runCheck policy ctx documents check).Agrees (runCheck policy ctx documents' check) := by
  rw [runCheck, runCheck]
  cases check.body with
  | entry run => exact .refl _
  | collection run => exact .refl _
  | window run => exact ⟨h.flatMap_right _, rfl⟩

/-- The bodies that look at the whole bibliography are those of the checks said to. -/
theorem granularity_of_collection {run : Context → Findings} (h : check.body = .collection run) :
    check.granularity = .collection := by
  cases check with
  | duplicateEntries | identicalTitles | uncitedCitations | undefinedCitations => rfl
  | _ => cases h

theorem entries_perm (h : es.Perm es') (citations : Option Citations) (probe : Option Probe)
    (onlyCited : Bool) :
    (Context.mk (.ofEntries es) citations probe onlyCited).entries.Perm
      (Context.mk (.ofEntries es') citations probe onlyCited).entries :=
  h.filter _

/-- A check that does not look at the whole bibliography sees its entries one by one. -/
theorem runCheck_entries (policy : Policy) (citations : Option Citations) (probe : Option Probe)
    (onlyCited : Bool) (documents : List Document) (hg : check.granularity ≠ .collection)
    (h : es.Perm es') :
    (runCheck policy ⟨.ofEntries es, citations, probe, onlyCited⟩ documents check).Agrees
      (runCheck policy ⟨.ofEntries es', citations, probe, onlyCited⟩ documents check) := by
  rw [runCheck, runCheck]
  cases hb : check.body with
  | entry run =>
      -- Of its context, the check sees nothing that the order of entries could change.
      have hsame : onEntry policy ⟨.ofEntries es, citations, probe, onlyCited⟩ check run =
          onEntry policy ⟨.ofEntries es', citations, probe, onlyCited⟩ check run := by
        funext e
        have hrun : run e ⟨.ofEntries es, citations, probe, onlyCited⟩ =
            run e ⟨.ofEntries es', citations, probe, onlyCited⟩ := entry_context hb rfl
        rw [onEntry, onEntry, hrun]
      dsimp only
      rw [hsame]
      exact sum_agrees_of_perm ((entries_perm h citations probe onlyCited).map _)
  | collection run => exact absurd (granularity_of_collection hb) hg
  | window run => exact .refl _

/-! ## Selections -/

/-- The members of both sets are those of one and those of the other. -/
theorem toList_union (h : s.Disjoint t) : (s.union t).toList.Perm (s.toList ++ t.toList) := by
  have hfirst : (s.union t).toList.filter s = s.toList := by
    rw [CheckSet.toList, List.filter_filter]
    refine List.filter_congr fun check _ => ?_
    simp only [CheckSet.union]
    cases s check <;> rfl
  have hsecond : (s.union t).toList.filter (fun check => !s check) = t.toList := by
    rw [CheckSet.toList, List.filter_filter]
    refine List.filter_congr fun check _ => ?_
    simp only [CheckSet.union]
    cases hs : s check with
    | true => rw [h check hs]; rfl
    | false => rfl
  have hsplit := List.filter_append_perm s (s.union t).toList
  rw [hfirst, hsecond] at hsplit
  exact hsplit.symm

/-- What a check contributes does not depend on the selection. -/
theorem tally_selecting (input : LintInput) (policy : Policy) (s : CheckSet) :
    tally input (policy.selecting s) =
      .sum (s.toList.map (runCheck policy (contextOf input policy) input.documents)) := rfl

theorem tally_union (input : LintInput) (policy : Policy) (h : s.Disjoint t) :
    (tally input (policy.selecting (s.union t))).Agrees
      ((tally input (policy.selecting s)).append (tally input (policy.selecting t))) := by
  rw [tally_selecting, tally_selecting, tally_selecting, ← sum_append, ← List.map_append]
  exact sum_agrees_of_perm ((toList_union h).map _)

/-! ## Reports -/

/-- The list was not cut exactly if there is room for all complaints. -/
theorem truncatedReason_eq_none :
    (evaluate input policy).summary.truncatedReason = none ↔
      (allComplaints input policy).length ≤ policy.maxComplaints := by
  show (if policy.maxComplaints < (allComplaints input policy).length
    then some (truncationReason policy.maxComplaints) else none) = none ↔ _
  constructor
  · intro hnone
    by_contra hmore
    rw [if_pos (by omega)] at hnone
    cases hnone
  · intro hroom
    exact if_neg (by omega)

theorem evaluate_complaints_of_room
    (h : (allComplaints input policy).length ≤ policy.maxComplaints) :
    (evaluate input policy).complaints = allComplaints input policy := by
  rw [evaluate_complaints, List.take_of_length_le h]

/-- A report is determined by the counts of its input and by the complaints up to their sequence. -/
theorem evaluate_eq_of_agrees {input' : LintInput}
    (hp : input.parseComplaints.Perm input'.parseComplaints)
    (ht : (tally input policy).Agrees (tally input' policy))
    (he : input.bibliography.entries.length = input'.bibliography.entries.length)
    (hd : input.documents.length = input'.documents.length)
    (hc : input.citations = input'.citations) :
    evaluate input policy = evaluate input' policy := by
  have hall : Complaint.sort (input.parseComplaints ++ (tally input policy).complaints) =
      Complaint.sort (input'.parseComplaints ++ (tally input' policy).complaints) :=
    Complaint.sort_eq_of_perm (hp.append ht.complaints)
  simp only [evaluate, hall, ht.suppressed, he, hd, hc]

/-- Sets of checks that share none are run together or apart. -/
theorem evaluate_union (input : LintInput) (policy : Policy) (h : s.Disjoint t)
    (hroom : (evaluate input (policy.selecting (s.union t))).summary.truncatedReason = none) :
    (evaluate input (policy.selecting (s.union t))).Joins
      (evaluate input (policy.selecting s))
      (evaluate { input with parseComplaints := [] } (policy.selecting t)) := by
  have hagrees := tally_union input policy h
  have hmembers : (allComplaints input (policy.selecting (s.union t))).Perm
      (allComplaints input (policy.selecting s) ++
        allComplaints { input with parseComplaints := [] } (policy.selecting t)) := by
    refine (Complaint.sort_perm _).trans ?_
    refine List.Perm.trans ?_ ((Complaint.sort_perm _).append (Complaint.sort_perm _)).symm
    rw [List.append_assoc]
    exact hagrees.complaints.append_left input.parseComplaints
  -- If there is room for all complaints, there is room for those of each set.
  have hlength := hmembers.length_eq
  rw [List.length_append] at hlength
  have hall := truncatedReason_eq_none.mp hroom
  have hfirst : (allComplaints input (policy.selecting s)).length ≤ policy.maxComplaints := by
    change _ ≤ policy.maxComplaints at hall
    omega
  have hsecond : (allComplaints { input with parseComplaints := [] }
      (policy.selecting t)).length ≤ policy.maxComplaints := by
    change _ ≤ policy.maxComplaints at hall
    omega
  refine ⟨?_, ?_, ?_⟩
  · rw [evaluate_complaints_of_room hall, evaluate_complaints_of_room hfirst,
      evaluate_complaints_of_room hsecond, ← Complaint.sort_eq_of_perm hmembers]
    exact Complaint.eq_of_sorted (Complaint.sort_sorted _) (Complaint.sort_sorted _)
      (Complaint.sort_perm _).symm
  · show (s.union t).toList.length = s.toList.length + t.toList.length
    rw [(toList_union h).length_eq, List.length_append]
  · exact hagrees.suppressed

/-- Complaints from reading, and documents, may be given in any order. -/
theorem evaluate_reordered (input : LintInput) (policy : Policy) {parsed : List Complaint}
    (hp : parsed.Perm input.parseComplaints) (hd : documents.Perm input.documents) :
    evaluate { input with parseComplaints := parsed, documents := documents } policy =
      evaluate input policy := by
  refine evaluate_eq_of_agrees hp ?_ rfl hd.length_eq rfl
  exact sum_agrees_of_forall fun check _ => runCheck_documents policy _ check hd

/-- So may entries, if no check looks at the whole bibliography. -/
theorem evaluate_entries (input : LintInput) (policy : Policy) (h : es.Perm es')
    (hg : ∀ check, policy.selected check = true → check.granularity ≠ .collection) :
    evaluate { input with bibliography := .ofEntries es } policy =
      evaluate { input with bibliography := .ofEntries es' } policy := by
  refine evaluate_eq_of_agrees (.refl _) ?_ h.length_eq rfl rfl
  refine sum_agrees_of_forall fun check hcheck => ?_
  have hselected : policy.selected check = true := (List.mem_filter.mp hcheck).2
  exact runCheck_entries policy input.citations input.probe policy.onlyCited input.documents
    (hg check hselected) h

/-- Checks are independent of one another, and a report of the order in which its input is given.  The
order of complaints is total and lets no two different ones tie, so the sorted list is determined by
which complaints there are. -/
theorem evaluate_orderFree (input : LintInput) (policy : Policy) :
    (∀ s t : CheckSet, s.Disjoint t →
      (evaluate input (policy.selecting (s.union t))).summary.truncatedReason = none →
        (evaluate input (policy.selecting (s.union t))).Joins
          (evaluate input (policy.selecting s))
          (evaluate { input with parseComplaints := [] } (policy.selecting t))) ∧
      (∀ parsed documents, parsed.Perm input.parseComplaints → documents.Perm input.documents →
        evaluate { input with parseComplaints := parsed, documents := documents } policy =
          evaluate input policy) ∧
      (∀ es es' : List Entry, es.Perm es' →
        (∀ check, policy.selected check = true → check.granularity ≠ .collection) →
          evaluate { input with bibliography := .ofEntries es } policy =
            evaluate { input with bibliography := .ofEntries es' } policy) ∧
      Std.TransCmp Complaint.order ∧ (∀ a b, Complaint.order a b = .eq → a = b) ∧
      ∀ cs ds : List Complaint, cs.Perm ds → Complaint.sort cs = Complaint.sort ds := by
  refine ⟨?_, ?_, ?_, inferInstance, ?_, fun _ _ => Complaint.sort_eq_of_perm⟩
  · intro s t hdisjoint hroom
    exact evaluate_union input policy hdisjoint hroom
  · intro parsed documents hp hd
    exact evaluate_reordered input policy hp hd
  · intro es es' hperm hg
    exact evaluate_entries input policy hperm hg
  · intro a b htie
    exact Std.LawfulEqCmp.eq_of_compare htie

/-- Two entries, one of which a check leaves alone, two documents, and two complaints from before. -/
def mixedInput : LintInput where
  bibliography := .ofEntries
    [⟨"misc", "knuth", ⟨"refs.bib"⟩, 1, 2, [("title", ⟨"\x7bA\x7d", 2⟩)], []⟩,
      ⟨"misc", "lamport", ⟨"refs.bib"⟩, 4, 5, [], [("check-missing-doi", none)]⟩]
  citations := none
  documents :=
    [⟨⟨"talk.tex"⟩, [⟨"byte", 1⟩, ⟨"code", 1⟩]⟩, ⟨⟨"notes.tex"⟩, [⟨"bit", 3⟩, ⟨"stream", 4⟩]⟩]
  probe := none
  parseComplaints :=
    [.raise Complaint.parseError ⟨⟨"refs.bib"⟩, 9⟩ "second",
      .raise Complaint.parseError ⟨⟨"refs.bib"⟩, 3⟩ "first"]

/-- One check on entries. -/
def doiCheck : CheckSet := fun check => check == .missingDoi

/-- One check on words. -/
def wordCheck : CheckSet := fun check => check == .separatedWords

theorem evaluate_orderFree_mixed :
    let policy : Policy := ⟨doiCheck, true, false, 5⟩
    doiCheck.Disjoint wordCheck ∧
      (evaluate mixedInput (policy.selecting (doiCheck.union wordCheck))).summary.complaintsTotal =
        5 ∧
      (evaluate mixedInput (policy.selecting (doiCheck.union wordCheck))).Joins
        (evaluate mixedInput (policy.selecting doiCheck))
        (evaluate { mixedInput with parseComplaints := [] } (policy.selecting wordCheck)) ∧
      evaluate
          { mixedInput with
            parseComplaints := mixedInput.parseComplaints.reverse
            documents := mixedInput.documents.reverse } policy = evaluate mixedInput policy ∧
      evaluate
          { mixedInput with
            bibliography := .ofEntries mixedInput.bibliography.entries.reverse } policy =
        evaluate
          { mixedInput with bibliography := .ofEntries mixedInput.bibliography.entries } policy := by
  intro policy
  obtain ⟨hunion, hinput, hentries, -⟩ := evaluate_orderFree mixedInput policy
  have hdisjoint : doiCheck.Disjoint wordCheck := by
    intro check hcheck
    cases check with
    | missingDoi => rfl
    | _ => cases hcheck
  have htotal : (evaluate mixedInput
      (policy.selecting (doiCheck.union wordCheck))).summary.complaintsTotal = 5 := by
    rw [evaluate_total, allComplaints, Complaint.length_sort]
    decide +kernel
  have hroom : (evaluate mixedInput
      (policy.selecting (doiCheck.union wordCheck))).summary.truncatedReason = none := by
    rw [truncatedReason_eq_none, ← evaluate_total, htotal]
    decide
  have hgranularity : ∀ check, policy.selected check = true → check.granularity ≠ .collection := by
    intro check hcheck
    cases check with
    | missingDoi => decide
    | _ => cases hcheck
  exact ⟨hdisjoint, htotal, hunion doiCheck wordCheck hdisjoint hroom,
    hinput _ _ (List.reverse_perm _) (List.reverse_perm _),
    hentries _ _ (List.reverse_perm _) hgranularity⟩

end Lint

end BibAudit
