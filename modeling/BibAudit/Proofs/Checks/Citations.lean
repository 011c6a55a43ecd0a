/-
# BibAudit.Proofs.Checks.Citations — keys that are defined, and keys that are cited.

A key may be defined by entries, cited by documents, or both.  The two checks on citations share the
keys of which only one is true: a key that is defined and not cited is reported once, with all its
entries, and a key that is cited and not defined is reported at each of its citations.  A key that is
both is reported by neither.
-/
import BibAudit.Proofs.Checks.Duplication
import BibAudit.Proofs.Lint.Scope
import Mathlib.Data.List.Find
import Mathlib.Data.Option.Basic
import Mathlib.Logic.Basic

namespace BibAudit.Checks

variable {e : Entry} {es : List Entry} {stream : List Citation} {key : String}
  {seen : List String} {ctx : Context}

/-- Some entry has the key. -/
def DefinedIn (es : List Entry) (key : String) : Prop :=
  ∃ e ∈ es, e.key = key

instance (es : List Entry) : DecidablePred (DefinedIn es) :=
  fun key => inferInstanceAs (Decidable (∃ e ∈ es, e.key = key))

theorem hasKey_iff : (Bibliography.ofEntries es).hasKey key = true ↔ DefinedIn es key := by
  rw [Bibliography.hasKey_ofEntries, List.any_eq_true]
  simp only [beq_iff_eq, eq_comm (a := key)]
  exact Iff.rfl

/-! ## Defined and not cited -/

/-- Left are the entries that no entry of the same key stands before. -/
theorem mem_firstOfEachKey : e ∈ firstOfEachKey seen es ↔
    e.key ∉ seen ∧ es.find? (fun f => f.key == e.key) = some e := by
  induction es generalizing seen with
  | nil => simp [firstOfEachKey]
  | cons first rest ih =>
      by_cases hseen : first.key ∈ seen
      · rw [firstOfEachKey, if_pos (by simpa using hseen), ih]
        refine and_congr_right fun hfresh => ?_
        have hne : ¬ first.key = e.key := fun heq => hfresh (heq ▸ hseen)
        rw [List.find?_cons_of_neg (by simpa using hne)]
      · rw [firstOfEachKey, if_neg (by simpa using hseen), List.mem_cons, ih, List.mem_cons, not_or]
        by_cases hkey : first.key = e.key
        · rw [List.find?_cons_of_pos (by simpa using hkey), Option.some.injEq]
          constructor
          · rintro (rfl | ⟨⟨hne, -⟩, -⟩)
            · exact ⟨hseen, rfl⟩
            · exact absurd hkey.symm hne
          · exact fun h => .inl h.2.symm
        · rw [List.find?_cons_of_neg (by simpa using hkey)]
          constructor
          · rintro (rfl | ⟨⟨-, hfresh⟩, hfind⟩)
            · exact absurd rfl hkey
            · exact ⟨hfresh, hfind⟩
          · exact fun h => .inr ⟨⟨Ne.symm hkey, h.1⟩, h.2⟩

theorem nodup_firstOfEachKey (seen : List String) (es : List Entry) :
    ((firstOfEachKey seen es).map Entry.key).Nodup := by
  induction es generalizing seen with
  | nil => exact List.nodup_nil
  | cons first rest ih =>
      rw [firstOfEachKey]
      split
      · exact ih seen
      · refine List.nodup_cons.mpr ⟨?_, ih (first.key :: seen)⟩
        -- From here on the key is among those that were seen.
        intro hagain
        obtain ⟨e, he, hkey⟩ := List.mem_map.mp hagain
        exact (mem_firstOfEachKey.mp he).1 (hkey ▸ List.mem_cons_self)

/-- The complaint about a key with all its entries. -/
structure UncitedReport (key : String) (group : List Entry) (c : Complaint) : Prop where
  joins : c.Joins group .uncitedCitations Entry.location
  message : c.message = s!"Entry \"{key}\" is never cited"

theorem UncitedReport.key_eq {c : Complaint} (h : UncitedReport key (es.filter (·.key = key)) c) :
    c.key = some key := by
  cases hgroup : es.filter (·.key = key) with
  | nil =>
      have hplaces := h.joins.places
      rw [hgroup] at hplaces
      cases hplaces
  | cons first rest =>
      have hfirst : first ∈ es.filter (·.key = key) := hgroup ▸ List.mem_cons_self
      have hkey : first.key = key := of_decide_eq_true (List.mem_filter.mp hfirst).2
      rw [h.joins.key, hgroup, ← hkey]
      rfl

/-- The keys of the entries that nobody cites, each once. -/
def uncitedKeys (es : List Entry) (stream : List Citation) : List String :=
  (firstOfEachKey [] (es.filter fun e => ¬ CitedIn stream e.key)).map Entry.key

theorem mem_uncitedKeys :
    key ∈ uncitedKeys es stream ↔ DefinedIn es key ∧ ¬ CitedIn stream key := by
  rw [uncitedKeys, List.mem_map]
  constructor
  · rintro ⟨e, he, rfl⟩
    have hmem := List.mem_filter.mp (mem_of_mem_firstOfEachKey he)
    exact ⟨⟨e, hmem.1, rfl⟩, of_decide_eq_true hmem.2⟩
  · rintro ⟨⟨e, he, rfl⟩, hcited⟩
    -- The key belongs to the first of its entries.
    cases hfind : (es.filter fun e => ¬ CitedIn stream e.key).find? (fun f => f.key == e.key) with
    | none =>
        have hnone := List.find?_eq_none.mp hfind e (List.mem_filter.mpr ⟨he, decide_eq_true hcited⟩)
        exact absurd (beq_self_eq_true e.key) hnone
    | some first =>
        have hkey : first.key = e.key := by simpa using List.find?_some hfind
        refine ⟨first, mem_firstOfEachKey.mpr ⟨List.not_mem_nil, ?_⟩, hkey⟩
        rw [hkey]
        exact hfind

/-- An entry that is left is the first one of its key among all entries. -/
theorem exists_entries_of_key
    (he : e ∈ firstOfEachKey [] (es.filter fun e => ¬ CitedIn stream e.key)) :
    ∃ rest, es.filter (·.key = e.key) = e :: rest := by
  obtain ⟨-, hfind⟩ := mem_firstOfEachKey.mp he
  have hcited : ¬ CitedIn stream e.key :=
    of_decide_eq_true (List.mem_filter.mp (mem_of_mem_firstOfEachKey he)).2
  rw [← List.head?_eq_some_iff, List.head?_filter, ← hfind, List.find?_filter]
  refine List.find?_congr fun f _ => ?_
  rw [decide_eq_decide, decide_eq_true_eq, beq_iff_eq, iff_and_self]
  exact fun hkey => hkey ▸ hcited

theorem exists_uncited (he : ctx.entries = es) (hb : ctx.bibliography = .ofEntries es)
    (hc : ctx.citations = some (.ofList stream)) :
    ∃ cs, uncitedCitations ctx = .ok cs ∧ List.Forall₂ (fun key c =>
      UncitedReport key (es.filter (·.key = key)) c) (uncitedKeys es stream) cs := by
  have huncited : (ctx.entries.filter fun e => !(Citations.ofList stream).contains e.key) =
      es.filter fun e => ¬ CitedIn stream e.key := by
    rw [he]
    refine List.filter_congr fun e _ => ?_
    rw [Bool.eq_iff_iff, decide_eq_true_eq, ← contains_iff]
    simp
  simp only [uncitedCitations, hc, huncited, hb]
  refine ⟨_, rfl, ?_⟩
  rw [uncitedKeys, List.forall₂_map_left_iff, List.forall₂_map_right_iff, List.forall₂_same]
  intro e hmem
  obtain ⟨rest, hgroup⟩ := exists_entries_of_key hmem
  have hindex : (Bibliography.ofEntries es).allWithKey e.key = e :: rest := by
    rw [Bibliography.allWithKey_ofEntries, ← hgroup]
    exact List.filter_congr fun f _ => beq_eq_decide f.key e.key
  rw [hgroup, hindex]
  exact ⟨⟨rfl, rfl, rfl⟩, rfl⟩

/-! ## Cited and not defined -/

/-- The complaint about one citation. -/
def undefinedReport (c : Citation) : Complaint :=
  ⟨c.location, some c.key, Check.undefinedCitations.name,
    s!"Citation \"{c.key}\" is not defined in any bibliography", []⟩

/-- The citations of keys that no entry has. -/
def undefinedIn (es : List Entry) (stream : List Citation) : List Citation :=
  stream.filter fun c => ¬ DefinedIn es c.key

/-- Grouping moves the citations, and each is then looked at on its own. -/
theorem exists_undefined (ctx : Context) (hb : ctx.bibliography = .ofEntries es)
    (hc : ctx.citations = some (.ofList stream)) :
    ∃ cs, undefinedCitations ctx = .ok cs ∧
      cs.Perm ((undefinedIn es stream).map undefinedReport) := by
  let places := (Citations.ofList stream).places
  let cited := stream.map fun c => (c.key, c.location)
  let isUndefined := fun p : String × Location => !(Bibliography.ofEntries es).hasKey p.1
  let report := fun p : String × Location => undefinedReport ⟨p.1, p.2⟩
  let found := places.flatMap fun group =>
    if (Bibliography.ofEntries es).hasKey group.1 then []
    else group.2.map fun l => undefinedReport ⟨group.1, l⟩
  have hcheck : undefinedCitations ctx = .ok found := by
    simp only [undefinedCitations, hc, hb]
    rfl
  have hgroups : found = ((Groups.spread places).filter isUndefined).map report := by
    rw [Groups.spread, List.filter_flatMap, List.map_flatMap]
    refine List.flatMap_congr fun group _ => ?_
    rw [List.filter_map, List.map_map]
    cases hkey : (Bibliography.ofEntries es).hasKey group.1 with
    | true => simp [isUndefined, Function.comp_def, hkey]
    | false => simp [isUndefined, Function.comp_def, hkey, report]
  have hstream : (cited.filter isUndefined).map report =
      (undefinedIn es stream).map undefinedReport := by
    rw [List.filter_map, List.map_map]
    refine congrArg (List.map undefinedReport) (List.filter_congr fun c _ => ?_)
    rw [Bool.eq_iff_iff, decide_eq_true_eq, ← hasKey_iff]
    simp [isUndefined]
  refine ⟨found, hcheck, ?_⟩
  rw [hgroups, ← hstream]
  exact ((Groups.spread_ofList cited).filter isUndefined).map report

/-! ## Both checks -/

/-- A complaint about the key is among them. -/
def Reported (cs : List Complaint) (key : String) : Prop :=
  ∃ c ∈ cs, c.key = some key

theorem reported_uncited {cs : List Complaint} (h : List.Forall₂ (fun key c =>
      UncitedReport key (es.filter (·.key = key)) c) (uncitedKeys es stream) cs) :
    Reported cs key ↔ DefinedIn es key ∧ ¬ CitedIn stream key := by
  have hkeys : cs.map Complaint.key = (uncitedKeys es stream).map some := by
    rw [← List.forall₂_eq_eq_eq, List.forall₂_map_left_iff, List.forall₂_map_right_iff]
    exact h.flip.imp fun c key hc => hc.key_eq
  rw [← mem_uncitedKeys, ← List.mem_map_of_injective (Option.some_injective String), ← hkeys,
    List.mem_map]
  exact Iff.rfl

theorem reported_undefined {cs : List Complaint}
    (h : cs.Perm ((undefinedIn es stream).map undefinedReport)) :
    Reported cs key ↔ CitedIn stream key ∧ ¬ DefinedIn es key := by
  constructor
  · rintro ⟨c, hc, hkey⟩
    obtain ⟨citation, hmem, rfl⟩ := List.mem_map.mp (h.mem_iff.mp hc)
    obtain ⟨hstream, hfree⟩ := List.mem_filter.mp hmem
    obtain rfl : citation.key = key := Option.some.inj hkey
    exact ⟨⟨citation, hstream, rfl⟩, of_decide_eq_true hfree⟩
  · rintro ⟨⟨citation, hstream, rfl⟩, hfree⟩
    have hmem : citation ∈ undefinedIn es stream :=
      List.mem_filter.mpr ⟨hstream, decide_eq_true hfree⟩
    exact ⟨undefinedReport citation, h.mem_iff.mpr (List.mem_map_of_mem hmem), rfl⟩

/-- When all entries are looked at, the keys that are defined and not cited are reported once each,
at their first entry and with the others in order, and the citations of keys that are not defined are
reported one by one.  So a key of either side is reported by one of the two checks and not by the
other, unless it is on both sides.  When cited entries only are looked at, nothing is uncited, and the
undefined citations are the same. -/
theorem citations_partition (es : List Entry) (stream : List Citation) (probe : Option Probe) :
    ∃ keys uncited undefined,
      uncitedCitations ⟨.ofEntries es, some (.ofList stream), probe, false⟩ = .ok uncited ∧
      undefinedCitations ⟨.ofEntries es, some (.ofList stream), probe, false⟩ = .ok undefined ∧
      keys.Nodup ∧ (∀ key, key ∈ keys ↔ DefinedIn es key ∧ ¬ CitedIn stream key) ∧
      List.Forall₂ (fun key c => UncitedReport key (es.filter (·.key = key)) c) keys uncited ∧
      undefined.Perm ((undefinedIn es stream).map undefinedReport) ∧
      (∀ key, Reported uncited key ↔ DefinedIn es key ∧ ¬ CitedIn stream key) ∧
      (∀ key, Reported undefined key ↔ CitedIn stream key ∧ ¬ DefinedIn es key) ∧
      (∀ key, DefinedIn es key ∨ CitedIn stream key →
        (Xor (Reported uncited key) (Reported undefined key) ↔
          ¬ (DefinedIn es key ∧ CitedIn stream key))) ∧
      undefined.length = stream.countP (fun c => ¬ DefinedIn es c.key) ∧
      uncitedCitations ⟨.ofEntries es, some (.ofList stream), probe, true⟩ = .ok [] ∧
      undefinedCitations ⟨.ofEntries es, some (.ofList stream), probe, true⟩ = .ok undefined := by
  have hentries : (⟨.ofEntries es, some (.ofList stream), probe, false⟩ : Context).entries = es :=
    List.filter_eq_self.mpr fun _ _ => rfl
  obtain ⟨uncited, huncited, hreports⟩ := exists_uncited hentries rfl rfl
  obtain ⟨undefined, hundefined, hperm⟩ :=
    exists_undefined ⟨.ofEntries es, some (.ofList stream), probe, false⟩ rfl rfl
  have hfirst : ∀ key, Reported uncited key ↔ DefinedIn es key ∧ ¬ CitedIn stream key :=
    fun key => reported_uncited hreports
  have hsecond : ∀ key, Reported undefined key ↔ CitedIn stream key ∧ ¬ DefinedIn es key :=
    fun key => reported_undefined hperm
  refine ⟨uncitedKeys es stream, uncited, undefined, huncited, hundefined, ?_, ?_, hreports, hperm,
    hfirst, hsecond, ?_, ?_, ?_, hundefined⟩
  · exact nodup_firstOfEachKey [] _
  · exact fun key => mem_uncitedKeys
  · intro key hside
    rw [hfirst, hsecond, xor_iff_or_and_not_and]
    tauto
  · rw [hperm.length_eq, List.length_map, undefinedIn, List.countP_eq_length_filter]
  · exact Lint.uncitedCitations_eq rfl Lint.entries_wide

end BibAudit.Checks
