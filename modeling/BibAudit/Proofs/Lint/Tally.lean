/-
# BibAudit.Proofs.Lint.Tally — what the complaints of a run are about.

Whatever is selected and suppressed, a complaint that a run adds is about an entry in scope, about a
citation, or about a word of a document.  A check that fails is the one for local copies, and its
failure counts as a complaint about the entry that it failed on.
-/
import BibAudit.Proofs.Checks.Collection
import BibAudit.Proofs.Checks.Window
import BibAudit.Proofs.Order

namespace BibAudit.Lint

variable {policy : Policy} {ctx : Context} {documents : List Document} {check : Check}
  {c : Complaint} {e : Entry} {input : LintInput} {ts : List Tally}

/-! ## Contributions in a row -/

@[simp] theorem sum_cons (t : Tally) (ts : List Tally) :
    Tally.sum (t :: ts) = t.append (Tally.sum ts) := rfl

theorem sum_complaints (ts : List Tally) :
    (Tally.sum ts).complaints = ts.flatMap Tally.complaints := by
  induction ts with
  | nil => rfl
  | cons t rest ih => rw [sum_cons, Tally.append, ih, List.flatMap_cons]

/-- If no contribution took a unit out, none was taken out. -/
theorem sum_suppressed_eq_zero (h : ∀ t ∈ ts, t.suppressed = 0) : (Tally.sum ts).suppressed = 0 := by
  induction ts with
  | nil => rfl
  | cons t rest ih =>
      have hfirst := h t List.mem_cons_self
      have hrest := ih fun t ht => h t (List.mem_cons_of_mem _ ht)
      show t.suppressed + (Tally.sum rest).suppressed = 0
      omega

/-! ## The report -/

/-- All complaints of a run, in their order, before the list is cut. -/
def allComplaints (input : LintInput) (policy : Policy) : List Complaint :=
  Complaint.sort (input.parseComplaints ++ (tally input policy).complaints)

theorem evaluate_complaints (input : LintInput) (policy : Policy) :
    (evaluate input policy).complaints =
      (allComplaints input policy).take policy.maxComplaints := rfl

theorem evaluate_total (input : LintInput) (policy : Policy) :
    (evaluate input policy).summary.complaintsTotal = (allComplaints input policy).length := rfl

theorem mem_allComplaints :
    c ∈ allComplaints input policy ↔
      c ∈ input.parseComplaints ∨ c ∈ (tally input policy).complaints := by
  rw [allComplaints, Complaint.mem_sort, List.mem_append]

theorem mem_tally :
    c ∈ (tally input policy).complaints ↔ ∃ check ∈ policy.selected.toList,
      c ∈ (runCheck policy (contextOf input policy) input.documents check).complaints := by
  rw [tally, sum_complaints, List.mem_flatMap]
  simp

/-! ## Single checks -/

/-- The name of the check that a complaint comes from: only the one for local copies fails. -/
def producer (c : Complaint) : String :=
  if c.check == Complaint.internalError then Check.localCopies.name else c.check

theorem name_ne_internalError (check : Check) : check.name ≠ Complaint.internalError := by
  cases check <;> decide

theorem name_ne_parseError (check : Check) : check.name ≠ Complaint.parseError := by
  cases check <;> decide

theorem producer_eq_name (h : c.check = check.name) : producer c = check.name := by
  have hne := name_ne_internalError check
  rw [← h] at hne
  rw [producer, if_neg (by simpa using hne), h]

/-- What a check on entries adds for one entry, its failure included. -/
structure OfEntry (e : Entry) (check : Check) (c : Complaint) : Prop where
  key : c.key = some e.key
  marks : e.Marks c.location
  related : c.related = []
  producer : producer c = check.name
  notParsed : c.check ≠ Complaint.parseError

theorem ofEntry_of_concerned (h : e.Concerned check c) : OfEntry e check c where
  key := h.1.key
  marks := h.1.marks
  related := h.2
  producer := producer_eq_name h.1.check
  notParsed := h.1.check ▸ name_ne_parseError check

theorem ofEntry_failure (e : Entry) (err : CheckError) :
    OfEntry e .localCopies ((failure .localCopies e.location err).about e.key) where
  key := rfl
  marks := .inl rfl
  related := rfl
  producer := by simp [Lint.producer, failure, Complaint.raise, Complaint.about]
  notParsed := by
    show Complaint.internalError ≠ Complaint.parseError
    decide

theorem ofEntry_of_mem_onEntry {run : Entry → Context → Findings}
    (hb : check.body = .entry run) (h : c ∈ (onEntry policy ctx check run e).complaints) :
    OfEntry e check c := by
  rw [onEntry] at h
  split at h
  · exact absurd h List.not_mem_nil
  · rcases entry_findings hb e ctx with ⟨rfl, err, hfails⟩ | ⟨cs, hgives, hcs⟩
    · rw [hfails] at h
      obtain rfl := List.mem_singleton.mp h
      exact ofEntry_failure e err
    · rw [hgives] at h
      exact ofEntry_of_concerned (hcs c h)

theorem found_of_mem_onCollection {run : Context → Findings} (hb : check.body = .collection run)
    (h : c ∈ (onCollection policy ctx check run).complaints) : ctx.Found check c := by
  obtain ⟨cs, hgives, hcs⟩ := collection_findings hb ctx
  rw [onCollection, hgives] at h
  exact hcs c (List.mem_filter.mp h).1

/-- Where a complaint of a check comes from, by what the check is run on. -/
inductive Adds (policy : Policy) (ctx : Context) (documents : List Document) (check : Check)
    (c : Complaint) : Prop
  | onEntry (run : Entry → Context → Findings) (hb : check.body = .entry run) (e : Entry)
      (he : e ∈ ctx.entries) (hc : c ∈ (onEntry policy ctx check run e).complaints)
  | onCollection (found : ctx.Found check c)
  | onDocument (d : Document) (hd : d ∈ documents) (spots : d.Spots check d.words c)

theorem adds_of_mem_runCheck (h : c ∈ (runCheck policy ctx documents check).complaints) :
    Adds policy ctx documents check c := by
  rw [runCheck] at h
  cases hb : check.body with
  | entry run =>
      rw [hb] at h
      simp only [sum_complaints, List.mem_flatMap, List.mem_map] at h
      obtain ⟨_, ⟨e, he, rfl⟩, hc⟩ := h
      exact .onEntry run hb e he hc
  | collection run =>
      rw [hb] at h
      exact .onCollection (found_of_mem_onCollection hb h)
  | window run =>
      rw [hb] at h
      obtain ⟨d, hd, hc⟩ := List.mem_flatMap.mp h
      exact .onDocument d hd (spots_of_mem_document hb hc)

/-- What a complaint of a run may be about. -/
inductive Raised (ctx : Context) (documents : List Document) (c : Complaint) : Prop
  | ofEntry (e : Entry) (he : e ∈ ctx.bibliography.entries) (key : c.key = some e.key)
      (marks : e.Marks c.location)
      (related : ∀ l ∈ c.related, ∃ f ∈ ctx.bibliography.entries, f.Marks l)
  | ofCitation (citations : Citations) (hc : ctx.citations = some citations) (key : String)
      (place : citations.places.Holds key c.location) (related : c.related = [])
  | ofWord (d : Document) (hd : d ∈ documents) (w : Word) (hw : w ∈ d.words)
      (location : c.location = ⟨d.path, w.line⟩) (related : c.related = [])

theorem raised_of_mem_runCheck (h : c ∈ (runCheck policy ctx documents check).complaints) :
    Raised ctx documents c := by
  cases adds_of_mem_runCheck h with
  | onEntry run hb e he hc =>
      have hof := ofEntry_of_mem_onEntry hb hc
      refine .ofEntry e (Context.mem_entries.mp he).1 hof.key hof.marks ?_
      intro l hl
      rw [hof.related] at hl
      exact absurd hl List.not_mem_nil
  | onCollection found =>
      cases found with
      | ofEntry e he about related =>
          exact .ofEntry e (Context.mem_entries.mp he).1 about.key about.marks related
      | ofCitation key citations hc place name cited related =>
          exact .ofCitation citations hc key place related
  | onDocument d hd spots =>
      obtain ⟨w, hw, message, rfl⟩ := spots
      exact .ofWord d hd w hw rfl rfl

end BibAudit.Lint
