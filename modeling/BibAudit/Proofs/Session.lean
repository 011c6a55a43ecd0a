/-
# BibAudit.Proofs.Session — what a session has settled when it gives a report.

A session gives a report only if its settings could be read and resolved, its choices can work, and
every file could be read.  The report is then that of one run on what was read.
-/
import BibAudit.Session

namespace BibAudit

theorem exists_eq_ok {ε α : Type} {x : Except ε α} (h : x.isOk = true) : ∃ a, x = .ok a := by
  cases x with
  | error e => cases h
  | ok a => exact ⟨a, rfl⟩

/-- Choices are accepted only with room for a complaint. -/
theorem Settings.resolve_positive {s : Settings} {o : Overrides} {resolved : Resolved}
    (h : s.resolve o = .ok resolved) : 0 < resolved.policy.maxComplaints := by
  rw [Settings.resolve] at h
  simp only at h
  split at h
  · cases h
  · split at h
    · cases h
    · next hmost =>
        obtain rfl := Except.ok.inj h
        exact Nat.pos_of_ne_zero hmost

namespace Session

variable {view : FileView} {r : Request} {resolved : Resolved} {input : LintInput}
  {started finished : Timestamp} {outcome : Outcome}

/-- What holds of choices that are accepted. -/
structure Accepted (r : Request) (resolved : Resolved) : Prop where
  resolves : ∃ given, r.given = .ok given ∧ given.resolve r.overrides = .ok resolved
  cites : resolved.policy.onlyCited = true → r.documents.isEmpty = false
  copies : resolved.policy.selected .localCopies = true → ∃ dir, r.localDir = some dir

theorem accepted_of_choices (h : choices r = .ok resolved) : Accepted r resolved := by
  rw [choices] at h
  split at h
  · cases h
  · next given hgiven =>
      split at h
      · cases h
      · next found hresolve =>
          split at h
          · cases h
          · next hcites =>
              split at h
              · cases h
              · next hcopies =>
                  obtain rfl := Except.ok.inj h
                  refine ⟨⟨given, hgiven, hresolve⟩, ?_, ?_⟩
                  · intro honly
                    simpa [honly] using hcites
                  · intro hselected
                    exact Option.ne_none_iff_exists'.mp (by simpa [hselected] using hcopies)

/-- The input of a session comes of its files, and has a probe if there is a directory of copies. -/
theorem load_eq_ok (h : load view r = .ok input) :
    ∃ bibliographies documents, sources view r.bibliographies = .ok bibliographies ∧
      sources view r.documents = .ok documents ∧
      input = inputOf bibliographies documents (r.localDir.map (LocalCopies.probe view)) := by
  rw [load] at h
  split at h
  · cases h
  · next bibliographies hbibs =>
      split at h
      · cases h
      · next documents hdocs =>
          exact ⟨bibliographies, documents, hbibs, hdocs, (Except.ok.inj h).symm⟩

/-- A session that gives a report has accepted its choices and linted its input under them. -/
theorem run_eq_ok (h : run view r started finished = .ok outcome) :
    Accepted r outcome.choices ∧ ∃ input, load view r = .ok input ∧
      outcome.report =
        reportOf input outcome.choices.policy r.bibliographies.length started finished := by
  rw [run] at h
  split at h
  · cases h
  · next resolved hchoices =>
      cases hload : load view r with
      | error e =>
          rw [hload] at h
          cases h
      | ok input =>
          rw [hload] at h
          obtain rfl := Except.ok.inj h
          exact ⟨accepted_of_choices hchoices, input, rfl, rfl⟩

end Session

end BibAudit
