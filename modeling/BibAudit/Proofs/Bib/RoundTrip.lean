/-
# BibAudit.Proofs.Bib.RoundTrip — reading what was written.

The lines of a draft are read one kind after the other.  Between them the reader holds an entry with
an open field; what matters of the two is the entry that filing the field would give, and every kind
of line is described by what it does to that entry.  A whole file of drafts is then read entry by
entry, each leaving the reader where a file begins.
-/
import BibAudit.Proofs.Bib.Classify
import BibAudit.Proofs.Bib.Run

namespace BibAudit.Bib

open Text (isBlank Tight trim)

variable {path : SourcePath} {indent : List Char} {last line : Nat} {pending : List Directive}

/-! ## Directives and headers -/

theorem step_directive {d : DirectiveDraft} (h : d.WellFormed) :
    step path ⟨.outside 0, pending⟩ line d.line =
      (⟨.outside 0, pending ++ [d.asked]⟩, .empty) := by
  simp only [step, classify_directive_line h]
  rfl

theorem stepAll_directives {ds : List DirectiveDraft} (h : ∀ d ∈ ds, d.WellFormed) :
    stepAll path ⟨.outside 0, pending⟩ last (ds.map DirectiveDraft.line) =
      (⟨.outside 0, pending ++ ds.map DirectiveDraft.asked⟩, .empty) := by
  induction ds generalizing pending last with
  | nil => simp
  | cons d rest ih =>
      have hrest : stepAll path ⟨.outside 0, pending ++ [d.asked]⟩ (last + 1)
          (rest.map DirectiveDraft.line) = _ :=
        ih fun e he => h e (List.mem_cons_of_mem d he)
      rw [List.map_cons, stepAll_cons (step_directive (h d List.mem_cons_self)) hrest]
      simp

/-- The entry of a draft before any field, its header being on a line. -/
def Draft.headed (path : SourcePath) (line : Nat) (d : Draft) : Entry :=
  { Entry.new (String.ofList d.kind) (String.ofList d.key) path line with
    suppressions := lastReasons (d.directives.map DirectiveDraft.asked) }

theorem headerEntry_asked (d : Draft) :
    headerEntry path line d.kind d.key (d.directives.map DirectiveDraft.asked) =
      d.headed path line := by
  refine foldl_suppress _ _ rfl ?_
  intro asked hasked
  obtain ⟨r, -, rfl⟩ := List.mem_map.mp hasked
  exact Text.lowerAscii_lowerAscii _

theorem step_header {d : Draft} (h : d.WellFormed indent) :
    step path ⟨.outside 0, d.directives.map DirectiveDraft.asked⟩ line d.headerLine =
      (⟨.inEntry ⟨d.headed path line, none⟩, []⟩, .empty) := by
  simp only [step, classify_headerLine h]
  rw [← headerEntry_asked]
  rfl

/-! ## Fields -/

/-- Filing the open field, if there is one, gives this entry and no complaint. -/
def OpenEntry.Files (o : OpenEntry) (e : Entry) : Prop :=
  finishField o = (e, [])

theorem files_none (e : Entry) : OpenEntry.Files ⟨e, none⟩ e := rfl

/-- The comma that ends a written value belongs to the entry. -/
theorem finishedValue_concat_comma {value : List Char} (h : Tight value) :
    finishedValue (value ++ [',']) = value := by
  have htrim : trim (value ++ [',']) = value ++ [','] :=
    (tight_append_comma h []).trim_eq
  rw [finishedValue, htrim]
  simp [h.trimEnd_eq]

theorem files_field {e : Entry} {f : FieldDraft} {depth : Int} (h : f.WellFormed indent) :
    OpenEntry.Files ⟨e, some ⟨f.name, f.value ++ [','], line, depth⟩⟩
      (e.insertField (String.ofList f.name) (String.ofList f.value) line) := by
  simp only [OpenEntry.Files, finishField, finishedValue_concat_comma h.value_tight,
    h.value_braces]
  rfl

theorem step_startLine {o : OpenEntry} {e : Entry} {f : FieldDraft} (ho : o.Files e)
    (h : f.WellFormed indent) :
    ∃ depth, step path ⟨.inEntry o, pending⟩ line f.startLine =
      (⟨.inEntry ⟨e, some ⟨f.name, f.first ++ commaBefore f.more, line, depth⟩⟩, pending⟩,
        .empty) := by
  have hvalue : trim (f.first ++ commaBefore f.more) = f.first ++ commaBefore f.more :=
    (tight_append_comma (h.breaks f.first List.mem_cons_self) f.more).trim_eq
  refine ⟨Value.balance (f.first ++ commaBefore f.more), ?_⟩
  simp only [step, classify_startLine h, LineKind.isBoundary, stepInside, openField, hvalue]
  rw [ho]
  rfl

theorem step_text {o : OpenEntry} {raw : List Char} (h : classify raw = .text) :
    step path ⟨.inEntry o, pending⟩ line raw = (⟨.inEntry (o.extend raw), pending⟩, .empty) := by
  simp only [step, h]
  rfl

/-- Each line on which a value goes on puts a space and its piece behind what is there. -/
theorem stepAll_continuation {e : Entry} {name value : List Char} {more : List (List Char)}
    (hi : IsIndent indent) (ht : ∀ piece ∈ more, Tight piece)
    (hc : ∀ l ∈ continuationLines indent more, classify l = .text) (depth : Int) :
    ∃ depth', stepAll path
        ⟨.inEntry ⟨e, some ⟨name, value ++ commaBefore more, line, depth⟩⟩, pending⟩ last
        (continuationLines indent more) =
      (⟨.inEntry ⟨e, some ⟨name, value ++ (more.flatMap fun piece => ' ' :: piece) ++ [','],
        line, depth'⟩⟩, pending⟩, .empty) := by
  induction more generalizing value depth last with
  | nil => exact ⟨depth, by simp [continuationLines, commaBefore]⟩
  | cons piece more ih =>
      have htext : trim (indent ++ (piece ++ commaBefore more)) = piece ++ commaBefore more :=
        (tight_append_comma (ht piece List.mem_cons_self) more).trim_indented fun c hm => (hi c hm).1
      have hstep : step path ⟨.inEntry ⟨e, some ⟨name, value, line, depth⟩⟩, pending⟩ (last + 1)
          (indent ++ (piece ++ commaBefore more)) = _ :=
        step_text (hc _ List.mem_cons_self)
      have hextend : OpenEntry.extend ⟨e, some ⟨name, value, line, depth⟩⟩
          (indent ++ (piece ++ commaBefore more)) =
          ⟨e, some ⟨name, (value ++ ' ' :: piece) ++ commaBefore more, line,
            depth + Value.balance (piece ++ commaBefore more)⟩⟩ := by
        simp [OpenEntry.extend, OpenField.extend, htext]
      rw [hextend] at hstep
      obtain ⟨depth', hrest⟩ := @ih (last + 1) (value ++ ' ' :: piece)
        (fun p hp => ht p (List.mem_cons_of_mem piece hp))
        (fun l hl => hc l (List.mem_cons_of_mem _ hl))
        (depth + Value.balance (piece ++ commaBefore more))
      refine ⟨depth', ?_⟩
      have hnone : commaBefore (piece :: more) = [] := rfl
      rw [continuationLines, hnone, List.append_nil, stepAll_cons hstep hrest]
      simp

theorem stepAll_field (path : SourcePath) (pending : List Directive) (last : Nat)
    {o : OpenEntry} {e : Entry} {f : FieldDraft} (hi : IsIndent indent) (ho : o.Files e)
    (h : f.WellFormed indent) :
    ∃ o' : OpenEntry, stepAll path ⟨.inEntry o, pending⟩ last (f.lines indent) =
        (⟨.inEntry o', pending⟩, .empty) ∧
      o'.Files (e.insertField (String.ofList f.name) (String.ofList f.value) (last + 1)) := by
  obtain ⟨depth, hstart⟩ := step_startLine ho h
  obtain ⟨depth', hmore⟩ := stepAll_continuation hi
    (fun p hp => h.breaks p (List.mem_cons_of_mem f.first hp)) h.texts depth
  exact ⟨_, stepAll_cons hstart hmore, files_field h⟩

theorem length_continuationLines (more : List (List Char)) :
    (continuationLines indent more).length = more.length := by
  induction more with
  | nil => rfl
  | cons piece more ih => rw [continuationLines, List.length_cons, ih, List.length_cons]

theorem length_lines (f : FieldDraft) : (f.lines indent).length = f.height := by
  rw [FieldDraft.lines, List.length_cons, length_continuationLines, FieldDraft.height,
    Nat.add_comm]

/-- A field whose name is new goes to the end. -/
theorem insertField_of_not_mem {e : Entry} {name value : String}
    (h : Text.lowerAscii name ∉ e.fields.map Prod.fst) :
    e.insertField name value line =
      { e with fields := e.fields ++ [(Text.lowerAscii name, ⟨value, line⟩)] } := by
  have hlookup : e.fields.lookup (Text.lowerAscii name) = none := by
    rw [List.lookup_eq_none_iff]
    intro p hp
    have hne : Text.lowerAscii name ≠ p.1 := fun he => h (he ▸ List.mem_map_of_mem hp)
    simpa using hne
  simp [Entry.insertField, Entry.hasField, hlookup]

theorem stepAll_fields (path : SourcePath) (pending : List Directive) {o : OpenEntry} {e : Entry}
    {fs : List FieldDraft} (hi : IsIndent indent) (ho : o.Files e)
    (h : ∀ f ∈ fs, f.WellFormed indent)
    (hn : (e.fields.map Prod.fst ++ fs.map FieldDraft.storedName).Nodup) :
    ∃ o' : OpenEntry, stepAll path ⟨.inEntry o, pending⟩ last
          (fs.flatMap (FieldDraft.lines indent)) = (⟨.inEntry o', pending⟩, .empty) ∧
      o'.Files { e with fields := e.fields ++ fieldsAfter last fs } := by
  induction fs generalizing o e last with
  | nil => exact ⟨o, rfl, by simpa [fieldsAfter] using ho⟩
  | cons f rest ih =>
      obtain ⟨o₁, hfield, hfiles⟩ := stepAll_field path pending last hi ho (h f List.mem_cons_self)
      have hnew : f.storedName ∉ e.fields.map Prod.fst := by
        intro hmem
        exact (List.nodup_append.mp hn).2.2 _ hmem _ List.mem_cons_self rfl
      rw [insertField_of_not_mem hnew] at hfiles
      obtain ⟨o₂, hrest, hfiles₂⟩ := @ih (last + f.height) _ _ hfiles
        (fun g hg => h g (List.mem_cons_of_mem f hg)) (by simpa [FieldDraft.storedName] using hn)
      have hlen : (f.lines indent).length = f.height := length_lines f
      refine ⟨o₂, ?_, ?_⟩
      · rw [List.flatMap_cons, stepAll_append hfield (hlen ▸ hrest), Yield.empty_append]
      · simpa [fieldsAfter, FieldDraft.storedName] using hfiles₂

/-! ## Entries -/

theorem step_close {o : OpenEntry} {e : Entry} (ho : o.Files e) :
    step path ⟨.inEntry o, pending⟩ line ['}'] =
      (⟨.outside 0, pending⟩, ⟨[e.endAt line], []⟩) := by
  have hclose : classify ['}'] = .close := by decide
  simp only [step, hclose, LineKind.isBoundary, stepInside, finish]
  rw [ho]
  rfl

theorem length_fieldLines (fs : List FieldDraft) :
    (fs.flatMap (FieldDraft.lines indent)).length = fieldsHeight fs := by
  induction fs with
  | nil => rfl
  | cons f rest ih => rw [List.flatMap_cons, List.length_append, length_lines, ih, fieldsHeight]

theorem length_draftLines (d : Draft) : (d.lines indent).length = d.height := by
  simp only [Draft.lines, List.length_append, List.length_map, List.length_cons,
    length_fieldLines, List.length_nil, Draft.height]
  omega

/-- An entry is read as a whole and leaves the reader as it was. -/
theorem stepAll_draft {d : Draft} (hi : IsIndent indent) (h : d.WellFormed indent) :
    stepAll path .start last (d.lines indent) = (.start, ⟨[d.entryAfter path last], []⟩) := by
  have hdirectives : stepAll path .start last (d.directives.map DirectiveDraft.line) =
      (⟨.outside 0, [] ++ d.directives.map DirectiveDraft.asked⟩, .empty) :=
    stepAll_directives h.directives
  rw [List.nil_append] at hdirectives
  obtain ⟨o, hfields, hfiles⟩ := @stepAll_fields _ (last + d.directives.length + 1) path []
    _ _ _ hi (files_none (d.headed path (last + d.directives.length + 1))) h.fields h.names
  have hclose : stepAll path ⟨.inEntry o, []⟩ (last + d.directives.length + 1 +
      (d.fields.flatMap (FieldDraft.lines indent)).length) [['}']] =
      (.start, ⟨[d.entryAfter path last], []⟩) := by
    refine stepAll_singleton ((step_close hfiles).trans ?_)
    have hlast : last + d.directives.length + 1 + fieldsHeight d.fields + 1 =
        last + d.height := by
      rw [Draft.height]; omega
    have hmax : max (last + d.height) (last + d.directives.length + 1) = last + d.height := by
      rw [Draft.height]; omega
    rw [length_fieldLines, hlast]
    simp [Entry.endAt, Draft.headed, Draft.entryAfter, Entry.new, hmax, Cursor.start]
  have hbody := stepAll_append hfields hclose
  have hlen : last + d.directives.length = last + (d.directives.map DirectiveDraft.line).length := by
    rw [List.length_map]
  have hall := stepAll_append hdirectives (hlen ▸ stepAll_cons (step_header h) hbody)
  simpa [Draft.lines] using hall

theorem readLines_drafts {ds : List Draft} (hi : IsIndent indent)
    (h : ∀ d ∈ ds, d.WellFormed indent) :
    readLines path .start last (ds.flatMap (Draft.lines indent)) =
      ⟨entriesAfter path last ds, []⟩ := by
  induction ds generalizing last with
  | nil => rfl
  | cons d rest ih =>
      rw [List.flatMap_cons, readLines_append (stepAll_draft hi (h d List.mem_cons_self)),
        length_draftLines, ih fun e he => h e (List.mem_cons_of_mem d he)]
      rfl

/-! ## Lines that stand alone -/

theorem isLine_append (front : List Char) {back : List Char} (hne : back ≠ []) (ht : Tight back)
    (hf : '\n' ∉ front) (hb : '\n' ∉ back) : Text.IsLine (front ++ back) := by
  refine ⟨fun hmem => (List.mem_append.mp hmem).elim hf hb, fun hlast => ?_⟩
  obtain ⟨start, z, rfl⟩ := (List.eq_nil_or_concat back).resolve_left hne
  rw [List.concat_eq_append, ← List.append_assoc, List.getLast?_concat] at hlast
  have hz : isBlank z = false := ht.last z (by simp)
  obtain rfl : z = '\r' := by simpa using hlast
  exact absurd hz (by decide)

theorem not_mem_of_class {p : Char → Bool} {cs : List Char} {c : Char} (h : ∀ d ∈ cs, p d = true)
    (hc : p c = false) : c ∉ cs := by
  intro hmem
  rw [h c hmem] at hc
  exact Bool.noConfusion hc

theorem isLine_directive {d : DirectiveDraft} (h : d.WellFormed) : Text.IsLine d.line := by
  have hcheck : '\n' ∉ d.check := fun hmem => absurd (h.check_word _ hmem) (by decide)
  have hsubject : '\n' ∉ d.subject := by
    rw [DirectiveDraft.subject]
    split
    · exact hcheck
    · next r hr => simpa [hcheck] using h.reason_line r hr
  exact isLine_append ['%', ' ', 'L', 'I', 'N', 'T', ' '] h.subject_ne h.tight_subject (by decide)
    hsubject

theorem isLine_headerLine {d : Draft} (h : d.WellFormed indent) : Text.IsLine d.headerLine := by
  have hkind : '\n' ∉ d.kind := not_mem_of_class h.kind_letters (by decide)
  have hkey : '\n' ∉ d.key := not_mem_of_class h.key_chars (by decide)
  have hcomma : Tight [','] := by decide
  have hline := isLine_append ('@' :: (d.kind ++ '{' :: d.key)) (by simp) hcomma
    (by simp [hkind, hkey]) (by decide)
  simpa [Draft.headerLine] using hline

theorem not_mem_commaBefore (more : List (List Char)) : '\n' ∉ commaBefore more := by
  rw [commaBefore]
  split <;> decide

theorem isLine_continuation {more : List (List Char)} (hi : IsIndent indent)
    (ht : ∀ piece ∈ more, Tight piece) (hn : ∀ piece ∈ more, '\n' ∉ piece)
    (hc : ∀ l ∈ continuationLines indent more, classify l = .text) :
    ∀ l ∈ continuationLines indent more, Text.IsLine l := by
  induction more with
  | nil => simp [continuationLines]
  | cons piece more ih =>
      intro l hl
      rcases List.mem_cons.mp hl with rfl | hl
      · have hindent : '\n' ∉ indent := fun hmem => (hi _ hmem).2 rfl
        have hne : piece ++ commaBefore more ≠ [] := by
          intro hnil
          -- An indentation alone would be a blank line, not text.
          have htext := hc _ hl
          have htrim := Text.tight_nil.trim_indented fun c hm => (hi c hm).1
          rw [hnil, classify, htrim] at htext
          exact LineKind.noConfusion htext
        refine isLine_append indent hne (tight_append_comma (ht piece List.mem_cons_self) more) hindent ?_
        simpa [not_mem_commaBefore] using hn piece List.mem_cons_self
      · exact ih (fun p hp => ht p (List.mem_cons_of_mem piece hp))
          (fun p hp => hn p (List.mem_cons_of_mem piece hp))
          (fun l hl => hc l (List.mem_cons_of_mem _ hl)) l hl

theorem isLine_field {f : FieldDraft} (hi : IsIndent indent) (h : f.WellFormed indent) :
    ∀ l ∈ f.lines indent, Text.IsLine l := by
  have hpieces : ∀ piece ∈ f.first :: f.more, '\n' ∉ piece := by
    intro piece hp hmem
    apply h.value_line
    rcases List.mem_cons.mp hp with rfl | hp
    · exact List.mem_append_left _ hmem
    · exact List.mem_append_right _
        (List.mem_flatMap.mpr ⟨piece, hp, List.mem_cons_of_mem ' ' hmem⟩)
  intro l hl
  rcases List.mem_cons.mp hl with rfl | hl
  · have hname : '\n' ∉ f.name := not_mem_of_class h.name_chars (by decide)
    have hfirst : '\n' ∉ f.first ++ commaBefore f.more := by
      simpa [not_mem_commaBefore] using hpieces f.first List.mem_cons_self
    have hline := isLine_append (' ' :: ' ' :: (f.name ++ [' ', '=', ' '])) h.written_ne
      (tight_append_comma (h.breaks f.first List.mem_cons_self) f.more) (by simp [hname]) hfirst
    simpa [FieldDraft.startLine] using hline
  · exact isLine_continuation hi (fun p hp => h.breaks p (List.mem_cons_of_mem f.first hp))
      (fun p hp => hpieces p (List.mem_cons_of_mem f.first hp)) h.texts l hl

theorem isLine_draft {d : Draft} (hi : IsIndent indent) (h : d.WellFormed indent) :
    ∀ l ∈ d.lines indent, Text.IsLine l := by
  intro l hl
  rw [Draft.lines, List.mem_append, List.mem_map, List.mem_cons, List.mem_append,
    List.mem_flatMap, List.mem_singleton] at hl
  rcases hl with ⟨r, hr, rfl⟩ | rfl | ⟨f, hf, hl⟩ | rfl
  · exact isLine_directive (h.directives r hr)
  · exact isLine_headerLine h
  · exact isLine_field hi (h.fields f hf) l hl
  · exact ⟨by decide, by decide⟩

/-! ## Files -/

/-- Written drafts are read back: the entries they describe, in order and on their lines, and no
complaint. -/
theorem read_writeDrafts (path : SourcePath) {ds : List Draft} (hi : IsIndent indent)
    (h : ∀ d ∈ ds, d.WellFormed indent) :
    read path (writeDrafts indent ds) = ⟨entriesAfter path 0 ds, []⟩ := by
  have hlines : ∀ l ∈ ds.flatMap (Draft.lines indent), Text.IsLine l := by
    intro l hl
    obtain ⟨d, hd, hl⟩ := List.mem_flatMap.mp hl
    exact isLine_draft hi (h d hd) l hl
  rw [read, writeDrafts, String.toList_ofList, Text.lines_unlines hlines, readLines_drafts hi h]

/-- Two entries: a check that is named twice, a value that goes on, and an entry without fields. -/
def sampleDrafts : List Draft :=
  [ { directives :=
        [⟨"Check-ISBN".toList, some "printed  that way".toList⟩,
          ⟨"check-isbn".toList, some "twice".toList⟩]
      kind := "Article".toList
      key := "knuth:84".toList
      fields :=
        [⟨"Title".toList, "\x7bLiterate".toList,
            ["Programming, \x7bA".toList, "Sketch\x7d\x7d".toList]⟩,
          ⟨"year".toList, "1984".toList, []⟩] },
    { directives := [], kind := "misc".toList, key := "b".toList, fields := [] } ]

theorem read_writeDrafts_sample :
    IsIndent "    ".toList ∧ (∀ d ∈ sampleDrafts, d.WellFormed "    ".toList) ∧
      read ⟨"refs.bib"⟩ (writeDrafts "    ".toList sampleDrafts) =
        ⟨entriesAfter ⟨"refs.bib"⟩ 0 sampleDrafts, []⟩ :=
  ⟨by decide, by decide, read_writeDrafts _ (by decide) (by decide)⟩

example : (entriesAfter ⟨"refs.bib"⟩ 0 sampleDrafts).map
    (fun e => (e.line, e.endLine, e.suppressions)) =
    [(3, 8, [("check-isbn", some "twice")]), (9, 10, [])] := by
  decide +kernel

end BibAudit.Bib
