/-
# BibAudit.Proofs.Bib.Entries — what the entries of a file look like.

Whatever a file holds, its entries are its header lines, and each of them has the form that a header
line asks for, lies on lines of its own, and has its fields there.  Names that reach an entry by other
lines, those of fields and of suppressed checks, are lowered and never empty: the invariant of the
reader is that no name waits that is empty.
-/
import BibAudit.Proofs.Bib.Form
import BibAudit.Proofs.Bib.Headings
import BibAudit.Proofs.Bib.Span
import BibAudit.Proofs.Text.Case

namespace BibAudit.Bib

open Text (lowerAscii)

variable {last line : Nat} {pending : List Directive} {o : OpenEntry} {c : Cursor} {e : Entry}
  {text : String}

/-! ## Names of fields and of suppressed checks -/

/-- The name says something, and has no ASCII capital. -/
def IsSmallName (name : String) : Prop :=
  name ≠ "" ∧ ∀ c ∈ name.toList, c.isUpper = false

theorem isSmallName_lowerAscii {name : String} (h : name ≠ "") : IsSmallName (lowerAscii name) := by
  refine ⟨?_, ?_⟩
  · simpa [lowerAscii] using h
  · intro c hc
    rw [lowerAscii, String.toList_ofList] at hc
    obtain ⟨d, -, rfl⟩ := List.mem_map.mp hc
    exact Text.isUpper_toLower d

/-- Fields and suppressed checks have small names. -/
structure SmallNames (e : Entry) : Prop where
  fields : ∀ f ∈ e.fields, IsSmallName f.1
  suppressions : ∀ s ∈ e.suppressions, IsSmallName s.1

/-- Names that wait to be filed in the open entry are not empty. -/
structure OpenEntry.Named (o : OpenEntry) : Prop where
  entry : SmallNames o.entry
  field : ∀ f ∈ o.field, f.name ≠ []

/-- Names that wait to be filed anywhere are not empty. -/
structure Cursor.Named (c : Cursor) : Prop where
  pending : ∀ d ∈ c.pending, d.1 ≠ ""
  state : ∀ o, c.state = .inEntry o → o.Named

/-- What reading a line leaves and yields is named as it should be. -/
def NamedResult (result : Cursor × Yield) : Prop :=
  result.1.Named ∧ ∀ e ∈ result.2.entries, SmallNames e

theorem named_outside {skipping : Int} (h : ∀ d ∈ pending, d.1 ≠ "") :
    Cursor.Named ⟨.outside skipping, pending⟩ :=
  ⟨h, fun _ ho => by cases ho⟩

theorem named_inEntry (h : ∀ d ∈ pending, d.1 ≠ "") (ho : o.Named) :
    Cursor.Named ⟨.inEntry o, pending⟩ :=
  ⟨h, fun _ he => by cases he; exact ho⟩

theorem mem_putReason {name : String} {reason : Option String} {old : List (String × Option String)}
    {s : String × Option String} (h : s ∈ Entry.putReason name reason old) :
    s.1 = name ∨ s ∈ old := by
  induction old with
  | nil =>
      obtain rfl := List.mem_singleton.mp h
      exact .inl rfl
  | cons first rest ih =>
      rw [Entry.putReason] at h
      split at h
      · rcases List.mem_cons.mp h with rfl | h
        · exact .inl rfl
        · exact .inr (List.mem_cons_of_mem first h)
      · rcases List.mem_cons.mp h with rfl | h
        · exact .inr List.mem_cons_self
        · exact (ih h).imp_right (List.mem_cons_of_mem first)

theorem SmallNames.suppress {e : Entry} (h : SmallNames e) {check : String} (hc : check ≠ "")
    (reason : Option String) : SmallNames (e.suppress check reason) := by
  refine ⟨h.fields, ?_⟩
  intro s hs
  rcases mem_putReason hs with hname | hold
  · rw [hname]
    exact isSmallName_lowerAscii hc
  · exact h.suppressions s hold

theorem smallNames_headerEntry (path : SourcePath) (line : Nat) (kind key : List Char)
    (h : ∀ d ∈ pending, d.1 ≠ "") : SmallNames (headerEntry path line kind key pending) := by
  have hkeep : ∀ (ds : List Directive) (e : Entry), (∀ d ∈ ds, d.1 ≠ "") → SmallNames e →
      SmallNames (ds.foldl (fun e d => e.suppress d.1 d.2) e) := by
    intro ds
    induction ds with
    | nil => exact fun _ _ he => he
    | cons d rest ih =>
        intro e hds he
        exact ih _ (fun r hr => hds r (List.mem_cons_of_mem d hr))
          (he.suppress (hds d List.mem_cons_self) d.2)
  exact hkeep pending _ h ⟨by simp [Entry.new], by simp [Entry.new]⟩

theorem smallNames_finishField (h : o.Named) : SmallNames (finishField o).1 := by
  rw [finishField]
  split
  · exact h.entry
  · next f hf =>
      simp only [Entry.insertField]
      split
      · exact h.entry
      · refine ⟨?_, h.entry.suppressions⟩
        intro g hg
        rcases List.mem_append.mp hg with hg | hg
        · exact h.entry.fields g hg
        · obtain rfl := List.mem_singleton.mp hg
          exact isSmallName_lowerAscii (by simpa using h.field f hf)

theorem smallNames_finish (h : o.Named) (line : Nat) :
    ∀ e ∈ (finish o line).entries, SmallNames e := by
  intro e he
  obtain rfl := List.mem_singleton.mp he
  exact ⟨(smallNames_finishField h).fields, (smallNames_finishField h).suppressions⟩

theorem named_openField (h : o.Named) (line : Nat) {name : List Char} (hn : name ≠ [])
    (value : List Char) : (openField o line name value).1.Named := by
  refine ⟨smallNames_finishField h, ?_⟩
  intro f hf
  obtain rfl := Option.some.inj hf
  exact hn

theorem named_headerRest {entry : Entry} (he : SmallNames entry) (line : Nat) (rest : List Char) :
    NamedResult (⟨(headerRest entry line rest).1, []⟩, (headerRest entry line rest).2) := by
  have hnone : ∀ d ∈ ([] : List Directive), d.1 ≠ "" := by simp
  have ho : OpenEntry.Named ⟨entry, none⟩ := ⟨he, by simp⟩
  have hopen : NamedResult (⟨.inEntry ⟨entry, none⟩, []⟩, .empty) :=
    ⟨named_inEntry hnone ho, by simp⟩
  rw [headerRest]
  split
  · exact hopen
  · exact ⟨named_outside hnone, smallNames_finish ho line⟩
  · split
    · exact hopen
    · next name value hfield =>
        have hname : name ≠ [] := field_form hfield
        split
        · have hlast := named_openField ho line hname value.dropLast
          refine ⟨named_outside hnone, ?_⟩
          intro e he
          exact smallNames_finish hlast line e he
        · exact ⟨named_inEntry hnone (named_openField ho line hname value), by simp⟩

theorem named_directive (h : ∀ d ∈ pending, d.1 ≠ "") {check : List Char} (hc : check ≠ [])
    (reason : Option (List Char)) : ∀ d ∈ pending ++ [directive check reason], d.1 ≠ "" := by
  intro d hd
  rcases List.mem_append.mp hd with hd | hd
  · exact h d hd
  · obtain rfl := List.mem_singleton.mp hd
    exact (isSmallName_lowerAscii (by simpa using hc)).1

theorem named_stepOutside (path : SourcePath) (line : Nat) (raw : List Char)
    (h : ∀ d ∈ pending, d.1 ≠ "") :
    NamedResult (stepOutside path line raw pending (classify raw)) := by
  cases hkind : classify raw with
  | header kind key rest =>
      exact named_headerRest (smallNames_headerEntry path line kind key h) line rest
  | suppression check reason =>
      exact ⟨named_outside (named_directive h (check_of_classify hkind) reason),
        by simp [stepOutside]⟩
  | _ => exact ⟨named_outside h, by simp [stepOutside]⟩

theorem OpenEntry.Named.extend (h : o.Named) (raw : List Char) : (o.extend raw).Named := by
  refine ⟨h.entry, ?_⟩
  intro f hf
  obtain ⟨g, hg, rfl⟩ := Option.map_eq_some_iff.mp hf
  exact h.field g hg

theorem named_stepInside (ho : o.Named) (line : Nat) (raw : List Char)
    (h : ∀ d ∈ pending, d.1 ≠ "") :
    NamedResult (stepInside o line raw pending (classify raw)) := by
  cases hkind : classify raw with
  | blank => exact ⟨named_inEntry h ho, by simp [stepInside]⟩
  | close => exact ⟨named_outside h, smallNames_finish ho line⟩
  | fieldStart name value =>
      exact ⟨named_inEntry h (named_openField ho line (name_of_classify hkind) value),
        by simp [stepInside]⟩
  | suppression check reason =>
      exact ⟨named_inEntry (named_directive h (check_of_classify hkind) reason) ho,
        by simp [stepInside]⟩
  | comment =>
      refine ⟨named_inEntry h ?_, by simp [stepInside]⟩
      split
      · exact ho.extend raw
      · exact ho
  | _ => exact ⟨named_inEntry h (ho.extend raw), by simp [stepInside]⟩

theorem named_step (h : c.Named) (path : SourcePath) (line : Nat) (raw : List Char) :
    NamedResult (step path c line raw) := by
  obtain ⟨state, pending⟩ := c
  cases state with
  | outside skipping =>
      simp only [step]
      split
      · exact ⟨named_outside h.pending, by simp⟩
      · exact named_stepOutside path line raw h.pending
  | inEntry o =>
      have ho : o.Named := h.state o rfl
      simp only [step]
      split
      · obtain ⟨hcursor, hyield⟩ := named_stepOutside path line raw h.pending
        refine ⟨hcursor, ?_⟩
        intro e he
        rcases List.mem_append.mp he with he | he
        · exact smallNames_finish ho (line - 1) e he
        · exact hyield e he
      · exact named_stepInside ho line raw h.pending

theorem smallNames_readLines (h : c.Named) (path : SourcePath) (last : Nat)
    (ls : List (List Char)) : ∀ e ∈ (readLines path c last ls).entries, SmallNames e := by
  induction ls generalizing c last with
  | nil =>
      obtain ⟨state, pending⟩ := c
      cases state with
      | outside skipping => simp [readLines, atEnd]
      | inEntry o => exact smallNames_finish (h.state o rfl) last
  | cons raw rest ih =>
      rcases hs : step path c (last + 1) raw with ⟨c', y⟩
      obtain ⟨hcursor, hyield⟩ := hs ▸ named_step h path (last + 1) raw
      rw [readLines_cons hs]
      intro e he
      rcases List.mem_append.mp he with he | he
      · exact hyield e he
      · exact ih hcursor (last + 1) e he

/-! ## The form of an entry -/

/-- The type, the key and the names of an entry have their form. -/
structure HasForm (e : Entry) : Prop where
  kind_ne : e.kind ≠ ""
  kind_letters : ∀ c ∈ e.kind.toList, c.isLower = true
  kind_entry : e.kind ∉ ["comment", "string", "preamble"]
  key_ne : e.key ≠ ""
  key_chars : ∀ c ∈ e.key.toList, isKeyChar c = true
  names : SmallNames e

/-- A heading of a file stands on one of its header lines. -/
theorem exists_header (h : e.heading ∈ headings text) :
    ∃ kind key, HeaderForm kind key ∧ e.kind = lowerAscii (String.ofList kind) ∧
      e.key = String.ofList key := by
  obtain ⟨⟨raw, line⟩, -, hheading⟩ := List.mem_filterMap.mp h
  dsimp only at hheading
  cases hkind : classify raw with
  | header kind key rest =>
      rw [hkind] at hheading
      obtain ⟨hk, hrest⟩ := Heading.mk.inj (Option.some.inj hheading)
      exact ⟨kind, key, headerForm_of_classify hkind, hk.symm, hrest.1.symm⟩
  | _ => rw [hkind] at hheading; cases hheading

theorem hasForm_of_heading (h : e.heading ∈ headings text) (hn : SmallNames e) : HasForm e := by
  obtain ⟨kind, key, hform, hkind, hkey⟩ := exists_header h
  have hletters : e.kind.toList = kind.map Char.toLower := by
    rw [hkind, lowerAscii, String.toList_ofList, String.toList_ofList]
  refine ⟨?_, ?_, ?_, ?_, ?_, hn⟩
  · intro hempty
    rw [hempty] at hletters
    exact hform.kind_ne (List.map_eq_nil_iff.mp hletters.symm)
  · intro c hc
    rw [hletters] at hc
    obtain ⟨d, hd, rfl⟩ := List.mem_map.mp hc
    exact Text.isLower_toLower (hform.kind_letters d hd)
  · intro hblock
    apply hform.kind_entry
    rw [← hletters]
    exact List.mem_map_of_mem hblock
  · rw [hkey]
    simpa using hform.key_ne
  · rw [hkey, String.toList_ofList]
    exact hform.key_chars

/-- The entries of a file are its header lines, in order; they have their form, and each lies on lines
of the file that are its own, with its fields between its first line and its last. -/
theorem read_entries (path : SourcePath) (text : String) :
    (read path text).entries.map Entry.heading = headings text ∧
      (∀ e ∈ (read path text).entries, 1 ≤ e.line ∧ e.line ≤ e.endLine ∧
        (∀ f ∈ e.fields, e.line ≤ f.2.line ∧ f.2.line ≤ e.endLine) ∧
        e.endLine ≤ (Text.lines text.toList).length) ∧
      (read path text).entries.Pairwise (fun a b => a.endLine < b.line) ∧
      ∀ e ∈ (read path text).entries, HasForm e := by
  have hsound := read_sound path text
  have hheadings : (read path text).entries.map Entry.heading = headings text :=
    headings_read path text
  refine ⟨hheadings, ?_, hsound.ordered, ?_⟩
  · intro e he
    obtain ⟨-, hfirst, hlast, hplaced⟩ := hsound.entries e he
    exact ⟨hfirst, hplaced.closes, hplaced.fields, hlast⟩
  · intro e he
    have hheading : e.heading ∈ headings text := hheadings ▸ List.mem_map_of_mem he
    have hstart : Cursor.start.Named := ⟨by simp [Cursor.start], by simp [Cursor.start]⟩
    exact hasForm_of_heading hheading (smallNames_readLines hstart path 0 _ e he)

example : (read ⟨"refs.bib"⟩
    "@comment\x7b\n@Misc\x7ba, note = \x7bopen,\n@misc\x7bb,\x7d\n").entries.map Entry.heading =
    [⟨"misc", "a", 2⟩, ⟨"misc", "b", 3⟩] := by
  decide +kernel

end BibAudit.Bib
