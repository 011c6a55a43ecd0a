/-
# BibAudit.Proofs.Lint.Truncation — a limit cuts the list of complaints, and hides no failure.

The list is sorted before it is cut, so a tighter limit shows the first complaints of a looser one,
and the counts do not depend on it but for that of the complaints shown.  A limit of nothing would
show an empty list for a run that found something, and the exit code goes by the list; but such a
limit is refused wherever it comes from, so a run that found something always says so.
-/
import BibAudit.Proofs.Lint.Tally
import BibAudit.Proofs.Session

namespace BibAudit

/-- The choices, with room for so many complaints. -/
def Policy.limitedTo (policy : Policy) (most : Nat) : Policy :=
  { policy with maxComplaints := most }

/-- The counts, as if all complaints were shown. -/
def Summary.uncut (s : Summary) : Summary :=
  { s with complaintsEmitted := s.complaintsTotal, truncatedReason := none }

/-- The report shows the first `most` complaints of some that a run found, and says how many there
are. -/
structure LintReport.Shows (found : List Complaint) (most : Nat) (r : LintReport) : Prop where
  complaints : r.complaints = found.take most
  total : r.summary.complaintsTotal = found.length
  emitted : r.summary.complaintsEmitted = min most r.summary.complaintsTotal
  length : r.complaints.length = r.summary.complaintsEmitted
  reason : r.summary.truncatedReason.isSome = true ↔ most < r.summary.complaintsTotal

namespace Lint

open Session (reportOf)

variable {input : LintInput} {policy : Policy} {files : Nat} {started finished : Timestamp}

/-- Which complaints there are is settled before the limit is looked at. -/
theorem allComplaints_limitedTo (input : LintInput) (policy : Policy) (most : Nat) :
    allComplaints input (policy.limitedTo most) = allComplaints input policy := rfl

theorem uncut_limitedTo (input : LintInput) (policy : Policy) (most : Nat) :
    (evaluate input (policy.limitedTo most)).summary.uncut =
      (evaluate input policy).summary.uncut := rfl

theorem evaluate_shows (input : LintInput) (policy : Policy) :
    (evaluate input policy).Shows (allComplaints input policy) policy.maxComplaints where
  complaints := evaluate_complaints input policy
  total := evaluate_total input policy
  emitted := List.length_take
  length := rfl
  reason := by
    rw [evaluate_total]
    show (if policy.maxComplaints < (allComplaints input policy).length then
      some (truncationReason policy.maxComplaints) else none).isSome = true ↔ _
    split
    · next hcut => simp [hcut]
    · next hroom => simp [hroom]

/-- With room for a complaint, an empty list means that nothing was found. -/
theorem exitCode_eq_zero_iff (hp : 0 < policy.maxComplaints) :
    (reportOf input policy files started finished).exitCode = 0 ↔
      (reportOf input policy files started finished).summary.complaintsTotal = 0 := by
  have hshows := evaluate_shows input policy
  have hlist : (reportOf input policy files started finished).complaints =
      (allComplaints input policy).take policy.maxComplaints := hshows.complaints
  have htotal : (reportOf input policy files started finished).summary.complaintsTotal =
      (allComplaints input policy).length := hshows.total
  rw [Report.exitCode, hlist, htotal]
  cases allComplaints input policy with
  | nil => simp
  | cons c rest =>
      obtain ⟨n, hn⟩ := Nat.exists_eq_succ_of_ne_zero (Nat.ne_of_gt hp)
      rw [hn]
      simp

/-- A limit cuts the list and changes no other count; the list, its length and the reason given
agree with it; and the exit code of a run whose choices are accepted is zero exactly if nothing was
found. -/
theorem evaluate_truncates (input : LintInput) (policy : Policy) :
    (∀ m m', m ≤ m' →
      (evaluate input (policy.limitedTo m)).complaints =
          (evaluate input (policy.limitedTo m')).complaints.take m ∧
        (evaluate input (policy.limitedTo m)).summary.uncut =
          (evaluate input (policy.limitedTo m')).summary.uncut) ∧
      (∀ m, (evaluate input (policy.limitedTo m)).Shows (allComplaints input policy) m) ∧
      (∀ (s : Settings) (o : Overrides) (resolved : Resolved), s.resolve o = .ok resolved →
        ∀ files started finished,
          (reportOf input resolved.policy files started finished).exitCode = 0 ↔
            (reportOf input resolved.policy files started finished).summary.complaintsTotal = 0) ∧
      ∀ view r started finished outcome, Session.run view r started finished = .ok outcome →
        (outcome.report.exitCode = 0 ↔ outcome.report.summary.complaintsTotal = 0) := by
  refine ⟨?_, ?_, ?_, ?_⟩
  · intro m m' h
    refine ⟨?_, ?_⟩
    · rw [evaluate_complaints, evaluate_complaints, allComplaints_limitedTo,
        allComplaints_limitedTo]
      show (allComplaints input policy).take m = ((allComplaints input policy).take m').take m
      rw [List.take_take, Nat.min_eq_left h]
    · rw [uncut_limitedTo, uncut_limitedTo]
  · intro m
    exact evaluate_shows input (policy.limitedTo m)
  · intro s o resolved hresolve files started finished
    exact exitCode_eq_zero_iff (Settings.resolve_positive hresolve)
  · intro view r started finished outcome hrun
    obtain ⟨haccepted, input, -, hreport⟩ := Session.run_eq_ok hrun
    obtain ⟨given, -, hresolve⟩ := haccepted.resolves
    rw [hreport]
    exact exitCode_eq_zero_iff (Settings.resolve_positive hresolve)

/-- A work without a DOI, and three complaints from before. -/
def crowdedInput : LintInput where
  bibliography := .ofEntries [⟨"misc", "one", ⟨"refs.bib"⟩, 1, 2, [], []⟩]
  citations := none
  documents := []
  probe := none
  parseComplaints :=
    [.raise Complaint.parseError ⟨⟨"refs.bib"⟩, 9⟩ "third",
      .raise Complaint.parseError ⟨⟨"refs.bib"⟩, 3⟩ "first",
      .raise Complaint.parseError ⟨⟨"refs.bib"⟩, 5⟩ "second"]

/-- A file with such a work and a brace too many, read with room for one complaint. -/
def crowdedView : FileView :=
  .ofList [("refs.bib", .ok (.file
    ("@misc\x7bone,\n\x7d\n\x7d\n".toList.map fun c => c.toNat.toUInt8)))]

/-- The command line of that session. -/
def crowdedRequest : Session.Request :=
  ⟨["refs.bib"], [], "", ⟨some "check-missing-doi", false, false, some 1⟩, none⟩

theorem evaluate_truncates_crowded :
    let policy : Policy := ⟨fun check => check == .missingDoi, true, false, 9⟩
    (evaluate crowdedInput policy).summary.complaintsTotal = 4 ∧
      (evaluate crowdedInput (policy.limitedTo 1)).complaints =
        (evaluate crowdedInput (policy.limitedTo 3)).complaints.take 1 ∧
      (∃ resolved, Settings.unset.resolve crowdedRequest.overrides = .ok resolved ∧
        ∀ files started finished,
          (reportOf crowdedInput resolved.policy files started finished).exitCode = 0 ↔
            (reportOf crowdedInput resolved.policy files started finished).summary.complaintsTotal =
              0) ∧
      ∃ outcome, Session.run crowdedView crowdedRequest default default = .ok outcome ∧
        (outcome.report.exitCode = 0 ↔ outcome.report.summary.complaintsTotal = 0) := by
  intro policy
  obtain ⟨hcut, -, hresolved, hsession⟩ := evaluate_truncates crowdedInput policy
  refine ⟨?_, ?_, ?_, ?_⟩
  · rw [evaluate_total, allComplaints, Complaint.length_sort]
    decide +kernel
  · exact (hcut 1 3 (by decide)).1
  · obtain ⟨resolved, hresolve⟩ : ∃ resolved,
        Settings.unset.resolve crowdedRequest.overrides = .ok resolved :=
      exists_eq_ok (by decide +kernel)
    exact ⟨resolved, hresolve, hresolved _ _ resolved hresolve⟩
  · obtain ⟨outcome, hrun⟩ : ∃ outcome,
        Session.run crowdedView crowdedRequest default default = .ok outcome :=
      exists_eq_ok (by decide +kernel)
    exact ⟨outcome, hrun, hsession _ _ _ _ outcome hrun⟩

end Lint

end BibAudit
