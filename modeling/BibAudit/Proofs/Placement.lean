/-
# BibAudit.Proofs.Placement — entries that do not share lines.

A complaint is traced to an entry by its location alone, through the first entry that spans it.  That
is the entry meant only if no two entries share a line and every field starts within its own entry.
Entries placed so are what reading a file gives; here is what placement is good for.
-/
import BibAudit.Bibliography
import BibAudit.Complaint

namespace BibAudit

variable {e f : Entry} {es fs : List Entry} {l : Location}

namespace Entry

theorem spans_iff : e.spans l = true ↔ e.path = l.path ∧ e.line ≤ l.line ∧ l.line ≤ e.endLine := by
  simp [spans, and_assoc]

theorem spans_eq_false_of_path_ne (h : e.path ≠ l.path) : e.spans l = false := by
  rw [← Bool.not_eq_true, spans_iff]
  rintro ⟨hpath, -⟩
  exact h hpath

theorem spans_eq_false_of_lt (h : l.line < e.line ∨ e.endLine < l.line) : e.spans l = false := by
  rw [← Bool.not_eq_true, spans_iff]
  rintro ⟨-, hfirst, hlast⟩
  omega

/-- The last line is not before the header, and every field starts on a line of the entry. -/
structure WellPlaced (e : Entry) : Prop where
  closes : e.line ≤ e.endLine
  fields : ∀ field ∈ e.fields, e.line ≤ field.2.line ∧ field.2.line ≤ e.endLine

instance (e : Entry) : Decidable e.WellPlaced :=
  decidable_of_iff (e.line ≤ e.endLine ∧ ∀ field ∈ e.fields,
    e.line ≤ field.2.line ∧ field.2.line ≤ e.endLine)
    ⟨fun ⟨hc, hf⟩ => ⟨hc, hf⟩, fun h => ⟨h.closes, h.fields⟩⟩

theorem WellPlaced.spans_location (h : e.WellPlaced) : e.spans e.location = true :=
  spans_iff.mpr ⟨rfl, Nat.le_refl _, h.closes⟩

/-- A field that is looked up is one of the fields. -/
theorem mem_of_lookup {fields : List (String × Field)} {name : String} {field : Field}
    (h : fields.lookup name = some field) : (name, field) ∈ fields := by
  obtain ⟨before, after, rfl, -⟩ := List.lookup_eq_some_iff.mp h
  exact List.mem_append_right _ List.mem_cons_self

theorem WellPlaced.spans_locationOf (h : e.WellPlaced) (name : String) :
    e.spans (e.locationOf name) = true := by
  rw [locationOf]
  cases hl : e.fields.lookup name with
  | none => exact h.spans_location
  | some field =>
      have hfield := h.fields _ (mem_of_lookup hl)
      exact spans_iff.mpr ⟨rfl, hfield.1, hfield.2⟩

/-- No location is a line of both entries. -/
def Apart (a b : Entry) : Prop :=
  ∀ l : Location, a.spans l = true → b.spans l = false

/-- Entries of different files are apart. -/
theorem apart_of_path_ne (h : e.path ≠ f.path) : e.Apart f := by
  intro l he
  have hpath : e.path = l.path := (spans_iff.mp he).1
  exact spans_eq_false_of_path_ne fun hf => h (hpath.trans hf.symm)

/-- So are entries of which one ends before the other starts. -/
theorem apart_of_lt (h : e.endLine < f.line) : e.Apart f := by
  intro l he
  have hlast : l.line ≤ e.endLine := (spans_iff.mp he).2.2
  exact spans_eq_false_of_lt (.inl (by omega))

end Entry

/-! ## Many entries -/

/-- Every entry is well placed, and no two of them share a line. -/
structure Placed (es : List Entry) : Prop where
  each : ∀ e ∈ es, e.WellPlaced
  apart : es.Pairwise Entry.Apart

namespace Placed

theorem filter (h : Placed es) (p : Entry → Bool) : Placed (es.filter p) where
  each e he := h.each e (List.mem_filter.mp he).1
  apart := h.apart.filter p

/-- Entries of other files may be added. -/
theorem append (he : Placed es) (hf : Placed fs) (hp : ∀ e ∈ es, ∀ f ∈ fs, e.path ≠ f.path) :
    Placed (es ++ fs) where
  each e hm := (List.mem_append.mp hm).elim (he.each e) (hf.each e)
  apart := List.pairwise_append.mpr ⟨he.apart, hf.apart,
    fun e hm f hn => Entry.apart_of_path_ne (hp e hm f hn)⟩

/-- The entry that spans a location is the one that is found there. -/
theorem find?_spans (h : Placed es) (he : e ∈ es) (hl : e.spans l = true) :
    es.find? (·.spans l) = some e := by
  obtain ⟨before, after, rfl⟩ := List.append_of_mem he
  have hbefore : ∀ f ∈ before, f.spans l = false := by
    intro f hf
    have hapart : f.Apart e :=
      (List.pairwise_append.mp h.apart).2.2 f hf e List.mem_cons_self
    -- A line of `f` would not be one of `e`.
    cases hs : f.spans l with
    | false => rfl
    | true => rw [hapart l hs] at hl; exact Bool.noConfusion hl
  have hnone : before.find? (·.spans l) = none := by
    rw [List.find?_eq_none]
    intro f hf
    simp [hbefore f hf]
  rw [List.find?_append, hnone, Option.none_or, List.find?_cons, hl]

theorem entryAt?_eq (h : Placed es) (he : e ∈ es) (hl : e.spans l = true) :
    (Bibliography.ofEntries es).entryAt? l = some e :=
  h.find?_spans he hl

end Placed

theorem entryAt?_eq_none_iff :
    (Bibliography.ofEntries es).entryAt? l = none ↔ ∀ e ∈ es, e.spans l = false := by
  rw [Bibliography.entryAt?, List.find?_eq_none]
  simp [Bibliography.ofEntries]

theorem entryAt?_eq_some (h : (Bibliography.ofEntries es).entryAt? l = some e) :
    e ∈ es ∧ e.spans l = true := by
  rw [Bibliography.entryAt?] at h
  exact ⟨List.mem_of_find?_eq_some h, by simpa using List.find?_some h⟩

/-- What the entry found at a location satisfies, some entry with that line does, and conversely. -/
theorem Placed.any_entryAt? (h : Placed es) (p : Entry → Bool) :
    ((Bibliography.ofEntries es).entryAt? l).any p = es.any fun e => e.spans l && p e := by
  cases hfound : (Bibliography.ofEntries es).entryAt? l with
  | none =>
      have hnone := entryAt?_eq_none_iff.mp hfound
      symm
      rw [Option.any_none, List.any_eq_false]
      intro e he
      simp [hnone e he]
  | some e =>
      obtain ⟨he, hspans⟩ := entryAt?_eq_some hfound
      rw [Option.any_some, Bool.eq_iff_iff, List.any_eq_true]
      constructor
      · intro hp
        exact ⟨e, he, by rw [hspans, hp]; rfl⟩
      · rintro ⟨f, hf, hand⟩
        obtain ⟨hfspans, hp⟩ := Bool.and_eq_true_iff.mp hand
        obtain rfl := Option.some.inj (hfound.symm.trans (h.entryAt?_eq hf hfspans))
        exact hp

/-! ## Complaints that carry the key of their line -/

/-- The key of a complaint is that of an entry at its location, or there is neither. -/
def Complaint.AnchoredIn (es : List Entry) (c : Complaint) : Prop :=
  (∃ e ∈ es, e.spans c.location = true ∧ c.key = some e.key) ∨
    ((∀ e ∈ es, e.spans c.location = false) ∧ c.key = none)

theorem Complaint.AnchoredIn.append_right {c : Complaint} (h : c.AnchoredIn es)
    (hf : ∀ f ∈ fs, f.spans c.location = false) : c.AnchoredIn (es ++ fs) := by
  rcases h with ⟨e, he, hspans, hkey⟩ | ⟨hnone, hkey⟩
  · exact .inl ⟨e, List.mem_append_left _ he, hspans, hkey⟩
  · exact .inr ⟨fun e he => (List.mem_append.mp he).elim (hnone e) (hf e), hkey⟩

theorem Complaint.AnchoredIn.append_left {c : Complaint} (h : c.AnchoredIn fs)
    (he : ∀ e ∈ es, e.spans c.location = false) : c.AnchoredIn (es ++ fs) := by
  rcases h with ⟨f, hf, hspans, hkey⟩ | ⟨hnone, hkey⟩
  · exact .inl ⟨f, List.mem_append_right _ hf, hspans, hkey⟩
  · exact .inr ⟨fun f hf => (List.mem_append.mp hf).elim (he f) (hnone f), hkey⟩

/-- Where entries do not share lines, an anchored complaint has the key that its location says. -/
theorem Placed.key_eq (h : Placed es) {c : Complaint} (hc : c.AnchoredIn es) :
    c.key = ((Bibliography.ofEntries es).entryAt? c.location).map Entry.key := by
  rcases hc with ⟨e, he, hspans, hkey⟩ | ⟨hnone, hkey⟩
  · rw [h.entryAt?_eq he hspans, hkey]
    rfl
  · rw [entryAt?_eq_none_iff.mpr hnone, hkey]
    rfl

end BibAudit
