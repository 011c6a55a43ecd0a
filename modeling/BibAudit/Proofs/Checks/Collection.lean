/-
# BibAudit.Proofs.Checks.Collection — complaints about several entries, and about citations.

A check on the whole bibliography never fails.  It complains about an entry in scope, under that
entry's key and at one of its marks, referring to marks of entries alone; or about a citation, under
the key that is cited there.  In scope is the whole bibliography or, where only cited entries count,
what is left of it without the others.
-/
import BibAudit.Proofs.Checks.Findings
import BibAudit.Proofs.Groups

namespace BibAudit

variable {e : Entry} {es seen : List Entry} {check : Check} {ctx : Context} {c : Complaint}

/-- What a check on the whole bibliography may find. -/
inductive Context.Found (ctx : Context) (check : Check) (c : Complaint) : Prop
  /-- A complaint about an entry in scope, which may refer to others. -/
  | ofEntry (e : Entry) (he : e ∈ ctx.entries) (about : c.IsAbout e check)
      (related : ∀ l ∈ c.related, ∃ f ∈ ctx.bibliography.entries, f.Marks l)
  /-- A complaint about one citation. -/
  | ofCitation (key : String) (citations : Citations) (hc : ctx.citations = some citations)
      (place : citations.places.Holds key c.location) (name : c.check = check.name)
      (cited : c.key = some key) (related : c.related = [])

theorem Context.Found.check_eq (h : ctx.Found check c) : c.check = check.name := by
  cases h with
  | ofEntry e he about related => exact about.check
  | ofCitation key citations hc place name cited related => exact name

theorem Context.mem_entries : e ∈ ctx.entries ↔ e ∈ ctx.bibliography.entries ∧ ctx.inScope e := by
  rw [Context.entries, List.mem_filter]

/-! ## The entries in scope -/

namespace Checks

/-- Some citation has the key. -/
def CitedIn (stream : List Citation) (key : String) : Prop :=
  ∃ c ∈ stream, c.key = key

instance (stream : List Citation) : DecidablePred (CitedIn stream) :=
  fun key => inferInstanceAs (Decidable (∃ c ∈ stream, c.key = key))

theorem contains_iff {stream : List Citation} {key : String} :
    (Citations.ofList stream).contains key = true ↔ CitedIn stream key := by
  rw [Citations.contains, Citations.ofList, Groups.has_ofList, List.any_map, List.any_eq_true]
  simp only [Function.comp_apply, beq_iff_eq, eq_comm (a := key)]
  exact Iff.rfl

end Checks

/-- These are the entries that a run looks at, in their order: all that there are, unless only cited
ones count and citations are known; then those whose keys are cited. -/
structure Context.LooksAt (ctx : Context) (es : List Entry) : Prop where
  all : ctx.onlyCited = false ∨ ctx.citations = none → es = ctx.bibliography.entries
  known : ∀ citations, ctx.onlyCited = true → ctx.citations = some citations →
    es = ctx.bibliography.entries.filter fun e => citations.contains e.key
  cited : ∀ stream, ctx.onlyCited = true → ctx.citations = some (.ofList stream) →
    es = ctx.bibliography.entries.filter fun e => Checks.CitedIn stream e.key

/-- Where only cited entries count, an entry is in scope if its key is cited. -/
theorem Context.entries_onlyCited {citations : Citations} (h : ctx.onlyCited = true)
    (hc : ctx.citations = some citations) :
    ctx.entries = ctx.bibliography.entries.filter fun e => citations.contains e.key := by
  rw [Context.entries]
  refine List.filter_congr fun e _ => ?_
  rw [Context.inScope, h, hc]

theorem Context.looksAt_entries (ctx : Context) : ctx.LooksAt ctx.entries where
  all := by
    intro hall
    rw [Context.entries, List.filter_eq_self]
    intro e _
    rcases hall with hwide | hunknown
    · rw [Context.inScope, hwide]
    · rw [Context.inScope, hunknown]
      cases ctx.onlyCited <;> rfl
  known := fun _ => Context.entries_onlyCited
  cited := by
    intro stream h hc
    rw [Context.entries_onlyCited h hc]
    refine List.filter_congr fun e _ => ?_
    rw [Bool.eq_iff_iff, decide_eq_true_eq, Checks.contains_iff]

/-- Entries that are grouped by something are entries in scope. -/
theorem mem_of_mem_group {items : List (String × Entry)} {name : String}
    (hi : ∀ item ∈ items, item.2 ∈ ctx.entries) (hg : (name, es) ∈ Groups.ofList items) :
    ∀ e ∈ es, e ∈ ctx.entries := by
  intro e he
  have hitem : (name, e) ∈ items := Groups.holds_ofList.mp ⟨es, hg, he⟩
  exact hi _ hitem

namespace Checks

/-! ## Equal keys and equal titles -/

theorem about_of_mem_sameKey {key : String} (h : c ∈ sameKey key es) :
    ∃ first rest, es = first :: rest ∧ c.IsAbout first .duplicateEntries ∧
      c.related = rest.map Entry.location := by
  rcases es with _ | ⟨first, _ | ⟨second, rest⟩⟩
  · exact absurd h List.not_mem_nil
  · exact absurd h List.not_mem_nil
  · obtain rfl := List.mem_singleton.mp h
    exact ⟨first, second :: rest, rfl, (first.concerned_complain _ _).1.referringTo _, rfl⟩

theorem about_of_mem_sameTitle {title : String} (h : c ∈ sameTitle title es) :
    ∃ first rest, es = first :: rest ∧ c.IsAbout first .identicalTitles ∧
      c.related = rest.map fun e => e.locationOf "title" := by
  rcases es with _ | ⟨first, rest⟩
  · exact absurd h List.not_mem_nil
  · rw [sameTitle] at h
    split at h
    · exact absurd h List.not_mem_nil
    · obtain rfl := List.mem_singleton.mp h
      exact ⟨first, rest, rfl, (first.concerned_complainAt _ _ _).1.referringTo _, rfl⟩

/-- A complaint about the first of some entries in scope that refers to marks of the others. -/
theorem found_of_first {first : Entry} {rest : List Entry} {mark : Entry → Location}
    (hm : ∀ f : Entry, f.Marks (mark f)) (hs : ∀ e ∈ first :: rest, e ∈ ctx.entries)
    (ha : c.IsAbout first check) (hr : c.related = rest.map mark) : ctx.Found check c := by
  refine .ofEntry first (hs first List.mem_cons_self) ha ?_
  intro l hl
  rw [hr] at hl
  obtain ⟨f, hf, rfl⟩ := List.mem_map.mp hl
  have hentry := (Context.mem_entries.mp (hs f (List.mem_cons_of_mem first hf))).1
  exact ⟨f, hentry, hm f⟩

theorem gives_duplicateEntries :
    (duplicateEntries ctx).Gives (ctx.Found .duplicateEntries) := by
  refine gives_ok ?_
  intro c hc
  obtain ⟨⟨key, es⟩, hg, hc⟩ := List.mem_flatMap.mp hc
  obtain ⟨first, rest, rfl, habout, hrelated⟩ := about_of_mem_sameKey hc
  have hscope : ∀ e ∈ first :: rest, e ∈ ctx.entries := by
    refine mem_of_mem_group ?_ hg
    intro item hi
    obtain ⟨e, he, rfl⟩ := List.mem_map.mp hi
    exact he
  exact found_of_first (fun e => .inl rfl) hscope habout hrelated

theorem gives_identicalTitles :
    (identicalTitles ctx).Gives (ctx.Found .identicalTitles) := by
  refine gives_ok ?_
  intro c hc
  obtain ⟨⟨title, es⟩, hg, hc⟩ := List.mem_flatMap.mp hc
  obtain ⟨first, rest, rfl, habout, hrelated⟩ := about_of_mem_sameTitle hc
  have hscope : ∀ e ∈ first :: rest, e ∈ ctx.entries := by
    refine mem_of_mem_group ?_ hg
    intro item hi
    obtain ⟨e, he, hitem⟩ := List.mem_filterMap.mp hi
    obtain ⟨title, -, rfl⟩ := Option.map_eq_some_iff.mp hitem
    exact he
  exact found_of_first (fun e => .inr ⟨"title", rfl⟩) hscope habout hrelated

/-! ## Citations -/

theorem mem_of_mem_firstOfEachKey {seen : List String} (h : e ∈ firstOfEachKey seen es) :
    e ∈ es := by
  induction es generalizing seen with
  | nil => exact absurd h List.not_mem_nil
  | cons first rest ih =>
      rw [firstOfEachKey] at h
      split at h
      · exact List.mem_cons_of_mem first (ih h)
      · rcases List.mem_cons.mp h with rfl | h
        · exact List.mem_cons_self
        · exact List.mem_cons_of_mem first (ih h)

theorem gives_uncitedCitations :
    (uncitedCitations ctx).Gives (ctx.Found .uncitedCitations) := by
  unfold uncitedCitations
  split
  · exact gives_nil
  · refine gives_ok ?_
    intro c hc
    obtain ⟨e, he, rfl⟩ := List.mem_map.mp hc
    have hscope : e ∈ ctx.entries := (List.mem_filter.mp (mem_of_mem_firstOfEachKey he)).1
    refine .ofEntry e hscope ((e.concerned_complain _ _).1.referringTo _) ?_
    intro l hl
    obtain ⟨f, hf, rfl⟩ := List.mem_map.mp hl
    exact ⟨f, Bibliography.mem_of_mem_allWithKey (List.mem_of_mem_drop hf), .inl rfl⟩

theorem gives_undefinedCitations :
    (undefinedCitations ctx).Gives (ctx.Found .undefinedCitations) := by
  unfold undefinedCitations
  split
  · exact gives_nil
  · next citations hcitations =>
      refine gives_ok ?_
      intro c hc
      obtain ⟨⟨key, locations⟩, hg, hc⟩ := List.mem_flatMap.mp hc
      simp only at hc
      split at hc
      · exact absurd hc List.not_mem_nil
      · obtain ⟨l, hl, rfl⟩ := List.mem_map.mp hc
        exact .ofCitation key citations hcitations ⟨locations, hg, hl⟩ rfl rfl rfl

end Checks

/-! ## The table -/

/-- No check on the whole bibliography fails, and each finds what such a check may find. -/
theorem collection_findings {run : Context → Findings} (h : check.body = .collection run)
    (ctx : Context) : (run ctx).Gives (ctx.Found check) := by
  cases check with
  | duplicateEntries => cases h; exact Checks.gives_duplicateEntries
  | identicalTitles => cases h; exact Checks.gives_identicalTitles
  | uncitedCitations => cases h; exact Checks.gives_uncitedCitations
  | undefinedCitations => cases h; exact Checks.gives_undefinedCitations
  | _ => cases h

end BibAudit
