/-
# BibAudit.Proofs.Checks.Findings — what complaints of a check are about.

A check on an entry complains about that entry alone: under its own name, with the key of the entry,
at the header or where a field starts, and without referring to anything else.  Only the check for
local copies can fail, and only it looks at the context, of which it sees the probe.
-/
import BibAudit.Checks.Table
import BibAudit.Proofs.Isbn
import BibAudit.Proofs.Placement

namespace BibAudit

variable {e : Entry} {check : Check} {ctx ctx' : Context} {P Q : Complaint → Prop}
  {c : Complaint} {cs : List Complaint}

/-! ## Complaints about an entry -/

/-- The location is the header of the entry, or where one of its fields starts. -/
def Entry.Marks (e : Entry) (l : Location) : Prop :=
  l = e.location ∨ ∃ field, l = e.locationOf field

theorem Entry.WellPlaced.spans_of_marks {l : Location} (h : e.WellPlaced) (hm : e.Marks l) :
    e.spans l = true := by
  rcases hm with rfl | ⟨field, rfl⟩
  · exact h.spans_location
  · exact h.spans_locationOf field

/-- The complaint is one of a check, about an entry. -/
structure Complaint.IsAbout (e : Entry) (check : Check) (c : Complaint) : Prop where
  check : c.check = check.name
  key : c.key = some e.key
  marks : e.Marks c.location

/-- What a check on an entry may find: complaints about the entry, which refer to nothing else. -/
def Entry.Concerned (e : Entry) (check : Check) (c : Complaint) : Prop :=
  c.IsAbout e check ∧ c.related = []

theorem Entry.concerned_complain (e : Entry) (check : Check) (message : String) :
    e.Concerned check (e.complain check message) :=
  ⟨⟨rfl, rfl, .inl rfl⟩, rfl⟩

theorem Entry.concerned_complainAt (e : Entry) (check : Check) (field message : String) :
    e.Concerned check (e.complainAt check field message) :=
  ⟨⟨rfl, rfl, .inr ⟨field, rfl⟩⟩, rfl⟩

theorem Complaint.IsAbout.referringTo (h : c.IsAbout e check) (related : List Location) :
    (c.referringTo related).IsAbout e check :=
  ⟨h.check, h.key, h.marks⟩

/-! ## Findings -/

/-- The check did not fail, and all that it found is of one sort. -/
def Findings.Gives (P : Complaint → Prop) (f : Findings) : Prop :=
  ∃ cs, f = .ok cs ∧ ∀ c ∈ cs, P c

theorem gives_ok (h : ∀ c ∈ cs, P c) : Findings.Gives P (.ok cs) :=
  ⟨cs, rfl, h⟩

theorem gives_nil : Findings.Gives P (.ok []) :=
  gives_ok fun _ hc => absurd hc List.not_mem_nil

theorem gives_singleton (h : P c) : Findings.Gives P (.ok [c]) :=
  gives_ok fun d hd => by
    obtain rfl := List.mem_singleton.mp hd
    exact h

theorem gives_map {α : Type} {f : α → Complaint} {items : List α} (h : ∀ a, P (f a)) :
    Findings.Gives P (.ok (items.map f)) :=
  gives_ok fun c hc => by
    obtain ⟨a, -, rfl⟩ := List.mem_map.mp hc
    exact h a

namespace Checks

/-! ## The checks on entries one by one -/

theorem gives_misformattedMonth :
    (misformattedMonth e ctx).Gives (e.Concerned .misformattedMonth) :=
  gives_map fun message => e.concerned_complainAt _ "month" message

theorem concerned_of_mem_illegalCharsIn {field : String} (h : c ∈ illegalCharsIn e field) :
    e.Concerned .illegalChars c := by
  rw [illegalCharsIn] at h
  split at h
  · exact absurd h List.not_mem_nil
  · simp only at h
    split at h
    · exact absurd h List.not_mem_nil
    · obtain rfl := List.mem_singleton.mp h
      exact e.concerned_complainAt _ _ _

theorem gives_illegalChars : (illegalChars e ctx).Gives (e.Concerned .illegalChars) := by
  refine gives_ok ?_
  intro c hc
  exact (List.mem_append.mp hc).elim concerned_of_mem_illegalCharsIn
    concerned_of_mem_illegalCharsIn

theorem gives_unquotedAbbreviations :
    (unquotedAbbreviations e ctx).Gives (e.Concerned .unquotedAbbreviations) := by
  unfold unquotedAbbreviations
  split
  · exact gives_nil
  · exact gives_singleton (e.concerned_complainAt _ _ _)

theorem gives_unquotedNames : (unquotedNames e ctx).Gives (e.Concerned .unquotedNames) := by
  unfold unquotedNames
  split
  · exact gives_nil
  · exact gives_map fun u => e.concerned_complainAt _ _ _

theorem gives_overquotedTitle :
    (overquotedTitle e ctx).Gives (e.Concerned .overquotedTitle) := by
  unfold overquotedTitle
  split
  · exact gives_nil
  · split
    · exact gives_singleton (e.concerned_complainAt _ _ _)
    · exact gives_nil

/-- A number is converted only if nothing is wrong with it, and then it converts. -/
theorem gives_isbn : (isbn e ctx).Gives (e.Concerned .isbn) := by
  unfold isbn
  split
  · exact gives_nil
  · next value _ =>
      simp only
      split
      · next h =>
          rw [Bool.and_eq_true, List.isEmpty_iff, beq_iff_eq] at h
          obtain ⟨hvalid, hkind⟩ := h
          -- The conversion validates once more, and finds nothing again.
          have hconverts := Isbn.toIsbn13_eq_ok hkind (by simp [hvalid])
          rw [hconverts]
          exact gives_singleton (e.concerned_complainAt _ _ _)
      · exact gives_map fun p => e.concerned_complainAt _ _ _

theorem gives_uniformDoiUrl : (uniformDoiUrl e ctx).Gives (e.Concerned .uniformDoiUrl) := by
  unfold uniformDoiUrl
  split
  · exact gives_nil
  · exact gives_singleton (e.concerned_complain _ _)
  · exact gives_singleton (e.concerned_complainAt _ _ _)

theorem gives_missingDoi : (missingDoi e ctx).Gives (e.Concerned .missingDoi) := by
  unfold missingDoi
  split
  · exact gives_nil
  · exact gives_singleton (e.concerned_complain _ _)

theorem gives_rfcDois : (rfcDois e ctx).Gives (e.Concerned .rfcDois) := by
  unfold rfcDois
  split
  · exact gives_nil
  · simp only
    split
    · exact gives_singleton (e.concerned_complain _ _)
    · split
      · exact gives_nil
      · exact gives_singleton (e.concerned_complainAt _ _ _)

theorem gives_presentFields : (presentFields e ctx).Gives (e.Concerned .presentFields) := by
  unfold presentFields
  split
  · exact gives_singleton (e.concerned_complain _ _)
  · simp only
    split
    · exact gives_nil
    · exact gives_singleton (e.concerned_complain _ _)

theorem gives_nameConsistency :
    (nameConsistency e ctx).Gives (e.Concerned .nameConsistency) := by
  unfold nameConsistency
  simp only
  split
  · exact gives_singleton (e.concerned_complainAt _ _ _)
  · exact gives_nil

theorem gives_fullFirstNames :
    (fullFirstNames e ctx).Gives (e.Concerned .fullFirstNames) := by
  unfold fullFirstNames
  split
  · exact gives_nil
  · simp only
    split
    · exact gives_nil
    · exact gives_singleton (e.concerned_complainAt _ _ _)

/-- The check for local copies fails, or finds what a check on an entry may find. -/
theorem gives_localCopies :
    (∃ err, localCopies e ctx = .error err) ∨
      (localCopies e ctx).Gives (e.Concerned .localCopies) := by
  unfold localCopies
  split
  · exact .inl ⟨_, rfl⟩
  · split
    · exact .inl ⟨_, rfl⟩
    · exact .inr gives_nil
    · exact .inr (gives_singleton (e.concerned_complain _ _))

end Checks

/-! ## The table -/

/-- Any check on entries fails only if it is the one for local copies, and otherwise finds what a
check on an entry may find. -/
theorem entry_findings {run : Entry → Context → Findings} (h : check.body = .entry run)
    (e : Entry) (ctx : Context) :
    (check = .localCopies ∧ ∃ err, run e ctx = .error err) ∨
      (run e ctx).Gives (e.Concerned check) := by
  cases check with
  | misformattedMonth => cases h; exact .inr Checks.gives_misformattedMonth
  | illegalChars => cases h; exact .inr Checks.gives_illegalChars
  | unquotedAbbreviations => cases h; exact .inr Checks.gives_unquotedAbbreviations
  | unquotedNames => cases h; exact .inr Checks.gives_unquotedNames
  | overquotedTitle => cases h; exact .inr Checks.gives_overquotedTitle
  | isbn => cases h; exact .inr Checks.gives_isbn
  | uniformDoiUrl => cases h; exact .inr Checks.gives_uniformDoiUrl
  | missingDoi => cases h; exact .inr Checks.gives_missingDoi
  | rfcDois => cases h; exact .inr Checks.gives_rfcDois
  | presentFields => cases h; exact .inr Checks.gives_presentFields
  | nameConsistency => cases h; exact .inr Checks.gives_nameConsistency
  | fullFirstNames => cases h; exact .inr Checks.gives_fullFirstNames
  | localCopies =>
      cases h
      exact Checks.gives_localCopies.imp (fun hfail => ⟨rfl, hfail⟩) id
  | _ => cases h

/-- A check on an entry sees of its context the probe alone. -/
theorem entry_context {run : Entry → Context → Findings} (h : check.body = .entry run)
    (hp : ctx.probe = ctx'.probe) : run e ctx = run e ctx' := by
  cases check with
  | localCopies =>
      cases h
      simp only [Checks.localCopies, hp]
  | _ => cases h <;> rfl

end BibAudit
