/-
# BibAudit.Proofs.Bib.Span — where the entries of a file are, and what complaints point at.

Read to its end, a file gives entries that follow one another without sharing a line, each with its
fields inside, and complaints that point at lines of the file and carry the key of the entry there.
Complaints about fields are made while their entry is still open, so the invariant of the reader
speaks of an entry that is yet to come: it starts at a known line and ends no earlier than the
last line read.
-/
import BibAudit.Proofs.Bib.Run
import BibAudit.Proofs.Placement

namespace BibAudit.Bib

variable {path : SourcePath} {first last line final : Nat} {o : OpenEntry} {y z : Yield}

/-! ## What a stretch of lines may yield -/

/-- The yield belongs to the lines from `first` to `final` of a file. -/
structure Yield.Sound (path : SourcePath) (first final : Nat) (y : Yield) : Prop where
  entries : ∀ e ∈ y.entries, e.path = path ∧ first ≤ e.line ∧ e.endLine ≤ final ∧ e.WellPlaced
  ordered : y.entries.Pairwise fun a b => a.endLine < b.line
  complaints : ∀ c ∈ y.complaints,
    c.location.path = path ∧ first ≤ c.location.line ∧ c.location.line ≤ final
  anchored : ∀ c ∈ y.complaints, c.AnchoredIn y.entries
  origin : ∀ c ∈ y.complaints, c.check = Complaint.parseError ∧ c.related = []

namespace Yield.Sound

theorem empty : Sound path first final .empty where
  entries := by simp
  ordered := List.Pairwise.nil
  complaints := by simp
  anchored := by simp
  origin := by simp

/-- One stretch of lines after another. -/
theorem append {mid : Nat} (hy : y.Sound path first mid) (hz : z.Sound path (mid + 1) final)
    (hf : first ≤ mid + 1) (hm : mid ≤ final) : (y ++ z).Sound path first final where
  entries := by
    intro e he
    rcases List.mem_append.mp he with he | he
    · obtain ⟨hpath, hfirst, hfinal, hwell⟩ := hy.entries e he
      exact ⟨hpath, hfirst, by omega, hwell⟩
    · obtain ⟨hpath, hfirst, hfinal, hwell⟩ := hz.entries e he
      exact ⟨hpath, by omega, hfinal, hwell⟩
  ordered := by
    refine List.pairwise_append.mpr ⟨hy.ordered, hz.ordered, ?_⟩
    intro a ha b hb
    have hend := (hy.entries a ha).2.2.1
    have hstart := (hz.entries b hb).2.1
    omega
  complaints := by
    intro c hc
    rcases List.mem_append.mp hc with hc | hc
    · obtain ⟨hpath, hfirst, hfinal⟩ := hy.complaints c hc
      exact ⟨hpath, hfirst, by omega⟩
    · obtain ⟨hpath, hfirst, hfinal⟩ := hz.complaints c hc
      exact ⟨hpath, by omega, hfinal⟩
  anchored := by
    -- The entries of one stretch span no line of the other.
    intro c hc
    rcases List.mem_append.mp hc with hc | hc
    · refine (hy.anchored c hc).append_right ?_
      intro e he
      have hstart := (hz.entries e he).2.1
      have hline := (hy.complaints c hc).2.2
      exact Entry.spans_eq_false_of_lt (.inl (by omega))
    · refine (hz.anchored c hc).append_left ?_
      intro e he
      have hend := (hy.entries e he).2.2.1
      have hline := (hz.complaints c hc).2.1
      exact Entry.spans_eq_false_of_lt (.inr (by omega))
  origin := by
    intro c hc
    exact (List.mem_append.mp hc).elim (hy.origin c) (hz.origin c)

/-- A complaint about a line between entries. -/
theorem complain (message : String) :
    (complaining [complain path line message]).Sound path line line where
  entries := by simp
  ordered := List.Pairwise.nil
  complaints := by simp [Bib.complain, Complaint.raise]
  anchored := by simp [Complaint.AnchoredIn, Bib.complain, Complaint.raise]
  origin := by simp [Bib.complain, Complaint.raise]

/-- The entries of a sound yield do not share lines. -/
theorem placed (h : y.Sound path first final) : Placed y.entries where
  each e he := (h.entries e he).2.2.2
  apart := h.ordered.imp Entry.apart_of_lt

end Yield.Sound

/-! ## The open entry -/

/-- After `last` lines, everything about the open entry is on its header line or after it. -/
structure OpenEntry.Placed (path : SourcePath) (last : Nat) (o : OpenEntry) : Prop where
  path : o.entry.path = path
  started : o.entry.line ≤ last
  fields : ∀ f ∈ o.entry.fields, o.entry.line ≤ f.2.line ∧ f.2.line ≤ last
  field : ∀ f, o.field = some f → o.entry.line ≤ f.line ∧ f.line ≤ last

/-- The yield has the open entry, closed on line `last` or later. -/
def Delivers (o : OpenEntry) (last : Nat) (y : Yield) : Prop :=
  ∃ e ∈ y.entries, e.path = o.entry.path ∧ e.key = o.entry.key ∧ e.line = o.entry.line ∧
    last ≤ e.endLine

/-- The complaint is about the open entry, at one of its lines so far. -/
def Concerns (o : OpenEntry) (last : Nat) (c : Complaint) : Prop :=
  ∃ n message, o.entry.line ≤ n ∧ n ≤ last ∧ c = complainOf o.entry n message

/-- Complaints about an open entry are sound once that entry is delivered. -/
theorem sound_complaining {cs : List Complaint} (hp : o.entry.path = path)
    (hs : y.Sound path o.entry.line final) (hd : Delivers o last y)
    (hc : ∀ c ∈ cs, Concerns o last c) :
    (Yield.complaining cs ++ y).Sound path o.entry.line final := by
  obtain ⟨e, he, hpath, hkey, hline, hend⟩ := hd
  have hfinal : e.endLine ≤ final := (hs.entries e he).2.2.1
  refine { entries := hs.entries, ordered := hs.ordered, complaints := ?_, anchored := ?_,
           origin := ?_ }
  · intro c hm
    rcases List.mem_append.mp hm with hm | hm
    · obtain ⟨n, message, hfirst, hlast, rfl⟩ := hc c hm
      exact ⟨hp, hfirst, (by omega : n ≤ final)⟩
    · exact hs.complaints c hm
  · intro c hm
    rcases List.mem_append.mp hm with hm | hm
    · obtain ⟨n, message, hfirst, hlast, rfl⟩ := hc c hm
      have hspans : e.spans (complainOf o.entry n message).location = true :=
        Entry.spans_iff.mpr ⟨hpath, (by omega : e.line ≤ n), (by omega : n ≤ e.endLine)⟩
      exact .inl ⟨e, he, hspans, congrArg some hkey.symm⟩
    · exact hs.anchored c hm
  · intro c hm
    rcases List.mem_append.mp hm with hm | hm
    · obtain ⟨n, message, -, -, rfl⟩ := hc c hm
      exact ⟨rfl, rfl⟩
    · exact hs.origin c hm

theorem Delivers.append_left (h : Delivers o last y) : Delivers o last (z ++ y) := by
  obtain ⟨e, he, hrest⟩ := h
  exact ⟨e, List.mem_append_right _ he, hrest⟩

theorem Delivers.append_right (h : Delivers o last y) : Delivers o last (y ++ z) := by
  obtain ⟨e, he, hrest⟩ := h
  exact ⟨e, List.mem_append_left _ he, hrest⟩

/-! ## Fields of the open entry -/

/-- Filing a field files it where it started. -/
theorem finishField_fields (h : o.Placed path last) :
    ∀ f ∈ (finishField o).1.fields, o.entry.line ≤ f.2.line ∧ f.2.line ≤ last := by
  rw [finishField]
  split
  · exact h.fields
  · next f hf =>
      simp only [Entry.insertField]
      split
      · exact h.fields
      · intro g hg
        rcases List.mem_append.mp hg with hg | hg
        · exact h.fields g hg
        · obtain rfl := List.mem_singleton.mp hg
          exact h.field f hf

theorem finishField_concerns (h : o.Placed path last) :
    ∀ c ∈ (finishField o).2, Concerns o last c := by
  rw [finishField]
  split
  · simp
  · next f hf =>
      intro c hc
      simp only [List.mem_map] at hc
      obtain ⟨e, -, rfl⟩ := hc
      obtain ⟨hfirst, hlast⟩ := h.field f hf
      exact ⟨f.line, _, hfirst, hlast, rfl⟩

/-- A field opened on a later line leaves the entry placed. -/
theorem openField_placed (h : o.Placed path last) (hl : last ≤ line) (name value : List Char) :
    (openField o line name value).1.Placed path line := by
  obtain ⟨hpath, -, hline⟩ := finishField_entry o
  have hstart : o.entry.line ≤ last := h.started
  refine ⟨hpath.trans h.path, ?_, ?_, ?_⟩
  · show (finishField o).1.line ≤ line
    omega
  · intro f hf
    show (finishField o).1.line ≤ f.2.line ∧ f.2.line ≤ line
    have hfield := finishField_fields h f hf
    omega
  · intro f hf
    show (finishField o).1.line ≤ f.line ∧ f.line ≤ line
    obtain rfl : _ = f := Option.some.inj hf
    show (finishField o).1.line ≤ line ∧ line ≤ line
    omega

/-- Closing the entry on a later line delivers it, with its complaints. -/
theorem finish_sound (h : o.Placed path last) (hl : last ≤ line) :
    (finish o line).Sound path o.entry.line line ∧ Delivers o line (finish o line) := by
  obtain ⟨hpath, hkey, hline⟩ := finishField_entry o
  have hstart : o.entry.line ≤ last := h.started
  -- The closing line is not before the header, so it is not moved.
  have hend : ((finishField o).1.endAt line).endLine = line := by
    show max line (finishField o).1.line = line
    omega
  have hwell : ((finishField o).1.endAt line).WellPlaced := by
    refine ⟨?_, ?_⟩
    · rw [hend]
      show (finishField o).1.line ≤ line
      omega
    · intro f hf
      have hfield := finishField_fields h f hf
      rw [hend]
      show (finishField o).1.line ≤ f.2.line ∧ f.2.line ≤ line
      omega
  have hone : Yield.Sound path o.entry.line line ⟨[(finishField o).1.endAt line], []⟩ := by
    refine ⟨?_, List.pairwise_singleton _ _, by simp, by simp, by simp⟩
    intro e he
    obtain rfl := List.mem_singleton.mp he
    exact ⟨hpath.trans h.path, Nat.le_of_eq hline.symm, Nat.le_of_eq hend, hwell⟩
  have hdelivers : Delivers o line ⟨[(finishField o).1.endAt line], []⟩ :=
    ⟨_, List.mem_singleton_self _, hpath, hkey, hline, Nat.le_of_eq hend.symm⟩
  have hsplit : finish o line = Yield.complaining (finishField o).2 ++
      ⟨[(finishField o).1.endAt line], []⟩ := by
    simp [finish, Yield.ext_iff]
  have hconcerns : ∀ c ∈ (finishField o).2, Concerns o line c := by
    intro c hc
    obtain ⟨n, message, hfirst, hlast, rfl⟩ := finishField_concerns h c hc
    exact ⟨n, message, hfirst, by omega, rfl⟩
  rw [hsplit]
  exact ⟨sound_complaining h.path hone hdelivers hconcerns, hdelivers.append_left⟩

/-- An entry that is cut off is complained about, and delivered up to the line before. -/
theorem cutOff_sound (h : o.Placed path last) (message : String) :
    (Yield.complaining [complainOf o.entry o.entry.line message] ++ finish o last).Sound path
        o.entry.line last ∧
      Delivers o last
        (Yield.complaining [complainOf o.entry o.entry.line message] ++ finish o last) := by
  obtain ⟨hsound, hdelivers⟩ := finish_sound h (Nat.le_refl last)
  refine ⟨sound_complaining h.path hsound hdelivers ?_, hdelivers.append_left⟩
  intro c hc
  obtain rfl := List.mem_singleton.mp hc
  exact ⟨o.entry.line, message, Nat.le_refl _, h.started, rfl⟩

/-! ## One line -/

/-- After `last` lines, the cursor holds nothing or an entry that is placed. -/
def Cursor.Placed (path : SourcePath) (last : Nat) (c : Cursor) : Prop :=
  match c.state with
  | .outside _ => True
  | .inEntry o => o.Placed path last

/-- The yield is one that reading on from the cursor may give: sound from the next line on, or from
the header of the open entry on, which it delivers. -/
def Cursor.Continues (path : SourcePath) (last final : Nat) (c : Cursor) (z : Yield) : Prop :=
  match c.state with
  | .outside _ => z.Sound path (last + 1) final
  | .inEntry o => z.Sound path o.entry.line final ∧ Delivers o last z

/-- Reading lines up to `line` gave `y` and left the cursor: what is read on from there makes the
whole sound from `first` on. -/
def Cursor.Extends (path : SourcePath) (first line : Nat) (c : Cursor) (y : Yield) : Prop :=
  c.Placed path line ∧ ∀ final z, line ≤ final → c.Continues path line final z →
    (y ++ z).Sound path first final

/-- A yield between entries is sound, and so is what is read on. -/
theorem extends_outside {skipping : Int} {pending : List Directive}
    (h : y.Sound path first line) (hf : first ≤ line + 1) :
    Cursor.Extends path first line ⟨.outside skipping, pending⟩ y :=
  ⟨trivial, fun _ _ hfinal hz => h.append hz hf hfinal⟩

/-- Complaints about the field that another one ends are about the entry that stays open. -/
theorem openField_continues (h : o.Placed path last) (hl : last ≤ line) (name value : List Char)
    (hs : z.Sound path (openField o line name value).1.entry.line final)
    (hd : Delivers (openField o line name value).1 line z) :
    (Yield.complaining (openField o line name value).2 ++ z).Sound path o.entry.line final ∧
      Delivers o line (Yield.complaining (openField o line name value).2 ++ z) := by
  obtain ⟨hpath, hkey, hline⟩ := finishField_entry o
  have hsound : z.Sound path o.entry.line final := hline ▸ hs
  have hdelivers : Delivers o line z := by
    obtain ⟨e, he, hepath, hekey, heline, hend⟩ := hd
    exact ⟨e, he, hepath.trans hpath, hekey.trans hkey, heline.trans hline, hend⟩
  refine ⟨sound_complaining h.path hsound hdelivers ?_, hdelivers.append_left⟩
  intro c hc
  obtain ⟨n, message, hfirst, hlast, rfl⟩ := finishField_concerns h c hc
  exact ⟨n, message, hfirst, by omega, rfl⟩

theorem headerRest_extends {entry : Entry} {pending : List Directive} (hp : entry.path = path)
    (hl : entry.line = line) (hf : entry.fields = []) (rest : List Char) :
    Cursor.Extends path line line ⟨(headerRest entry line rest).1, pending⟩
      (headerRest entry line rest).2 := by
  have hplaced : OpenEntry.Placed path line ⟨entry, none⟩ := by
    refine ⟨hp, Nat.le_of_eq hl, ?_, ?_⟩
    · intro f hm
      rw [hf] at hm
      exact absurd hm List.not_mem_nil
    · intro f hm
      cases hm
  -- The entry stays open with nothing read of its fields.
  have hopen : Cursor.Extends path line line ⟨.inEntry ⟨entry, none⟩, pending⟩ .empty := by
    refine ⟨hplaced, fun final z _ hz => ?_⟩
    rw [Yield.empty_append, ← hl]
    exact hz.1
  rw [headerRest]
  split
  · exact hopen
  · have hsound := (finish_sound hplaced (Nat.le_refl line)).1
    rw [hl] at hsound
    exact extends_outside hsound (Nat.le_succ line)
  · split
    · exact hopen
    · next name value _ =>
        split
        · have hnext := openField_placed hplaced (Nat.le_refl line) name value.dropLast
          obtain ⟨hsound, hdelivers⟩ := finish_sound hnext (Nat.le_refl line)
          have hwhole := (openField_continues hplaced (Nat.le_refl line) name value.dropLast hsound
            hdelivers).1
          rw [hl] at hwhole
          exact extends_outside hwhole (Nat.le_succ line)
        · refine ⟨openField_placed hplaced (Nat.le_refl line) name value, ?_⟩
          intro final z _ hz
          have hwhole := (openField_continues hplaced (Nat.le_refl line) name value hz.1 hz.2).1
          rw [hl] at hwhole
          exact hwhole

theorem headerEntry_new (path : SourcePath) (line : Nat) (kind key : List Char)
    (pending : List Directive) :
    (headerEntry path line kind key pending).path = path ∧
      (headerEntry path line kind key pending).line = line ∧
      (headerEntry path line kind key pending).fields = [] := by
  rw [headerEntry_eq]
  exact ⟨rfl, rfl, rfl⟩

/-- A line between entries. -/
theorem stepOutside_extends (path : SourcePath) (line : Nat) (raw : List Char)
    (pending : List Directive) (kind : LineKind) :
    Cursor.Extends path line line (stepOutside path line raw pending kind).1
      (stepOutside path line raw pending kind).2 := by
  cases kind with
  | header kind key rest =>
      obtain ⟨hp, hl, hf⟩ := headerEntry_new path line kind key pending
      exact headerRest_extends hp hl hf rest
  | malformedHeader => exact extends_outside (.complain _) (Nat.le_succ line)
  | close => exact extends_outside (.complain _) (Nat.le_succ line)
  | _ => exact extends_outside .empty (Nat.le_succ line)

theorem OpenEntry.Placed.mono (h : o.Placed path last) (hl : last ≤ line) :
    o.Placed path line := by
  refine ⟨h.path, Nat.le_trans h.started hl, ?_, ?_⟩
  · intro f hf
    have hfield := h.fields f hf
    omega
  · intro f hf
    have hfield := h.field f hf
    omega

/-- A value that goes on still starts where it did. -/
theorem OpenEntry.Placed.extend (h : o.Placed path last) (raw : List Char) :
    (o.extend raw).Placed path last := by
  refine ⟨h.path, h.started, h.fields, ?_⟩
  intro f hf
  obtain ⟨g, hg, rfl⟩ := Option.map_eq_some_iff.mp hf
  exact h.field g hg

/-- What is read from inside an entry is sound from its header on, and delivers it. -/
def Cursor.ExtendsOpen (path : SourcePath) (o : OpenEntry) (last line : Nat) (c : Cursor)
    (y : Yield) : Prop :=
  c.Placed path line ∧ ∀ final z, line ≤ final → c.Continues path line final z →
    (y ++ z).Sound path o.entry.line final ∧ Delivers o last (y ++ z)

theorem Delivers.mono (h : Delivers o line y) (hl : last ≤ line) : Delivers o last y := by
  obtain ⟨e, he, hpath, hkey, hline, hend⟩ := h
  exact ⟨e, he, hpath, hkey, hline, Nat.le_trans hl hend⟩

/-- The entry stays open, and its header where it was. -/
theorem extendsOpen_stay {o' : OpenEntry} {pending : List Directive} (he : o'.entry = o.entry)
    (h : o'.Placed path (last + 1)) :
    Cursor.ExtendsOpen path o last (last + 1) ⟨.inEntry o', pending⟩ .empty := by
  refine ⟨h, fun final z _ hz => ?_⟩
  obtain ⟨hsound, hdelivers⟩ := hz
  rw [he] at hsound
  have hsame : Delivers o (last + 1) z := by
    rw [Delivers, ← he]
    exact hdelivers
  rw [Yield.empty_append]
  exact ⟨hsound, hsame.mono (Nat.le_succ last)⟩

/-- The entry ends, and what is read on starts after it. -/
theorem extendsOpen_end {mid : Nat} {c : Cursor} (hs : y.Sound path o.entry.line mid)
    (hd : Delivers o last y) (ho : o.entry.line ≤ mid + 1) (hm : mid ≤ line)
    (hc : Cursor.Extends path (mid + 1) line c z) :
    Cursor.ExtendsOpen path o last line c (y ++ z) := by
  refine ⟨hc.1, fun final w hfinal hw => ?_⟩
  have hrest := hc.2 final w hfinal hw
  rw [Yield.append_assoc]
  exact ⟨hs.append hrest ho (by omega), hd.append_right⟩

/-- A line inside an entry that does not end it by its kind. -/
theorem stepInside_extends (h : o.Placed path last) (raw : List Char) (pending : List Directive)
    (kind : LineKind) :
    Cursor.ExtendsOpen path o last (last + 1) (stepInside o (last + 1) raw pending kind).1
      (stepInside o (last + 1) raw pending kind).2 := by
  have hstay : o.Placed path (last + 1) := h.mono (Nat.le_succ last)
  have hextend : (o.extend raw).Placed path (last + 1) := hstay.extend raw
  have hstarted : o.entry.line ≤ last := h.started
  cases kind with
  | blank => exact extendsOpen_stay rfl hstay
  | suppression check reason => exact extendsOpen_stay rfl hstay
  | text => exact extendsOpen_stay rfl hextend
  | header kind key rest => exact extendsOpen_stay rfl hextend
  | special => exact extendsOpen_stay rfl hextend
  | malformedHeader => exact extendsOpen_stay rfl hextend
  | comment =>
      rw [stepInside]
      cases o.field.any OpenField.insideBraces with
      | true => exact extendsOpen_stay rfl hextend
      | false => exact extendsOpen_stay rfl hstay
  | close =>
      obtain ⟨hsound, hdelivers⟩ := finish_sound h (Nat.le_succ last)
      -- The closing line belongs to the entry, so nothing is yielded after it.
      have hnothing : Cursor.Extends path (last + 1 + 1) (last + 1) ⟨.outside 0, pending⟩ .empty :=
        ⟨trivial, fun _ z _ hz => (Yield.empty_append z).symm ▸ hz⟩
      have hend := extendsOpen_end hsound (hdelivers.mono (Nat.le_succ last)) (by omega)
        (Nat.le_refl _) hnothing
      rw [Yield.append_empty] at hend
      exact hend
  | fieldStart name value =>
      -- The complaint about the field before comes first, its entry only with what is read on.
      refine ⟨openField_placed h (Nat.le_succ last) name value, fun final z _ hz => ?_⟩
      obtain ⟨hsound, hdelivers⟩ :=
        openField_continues h (Nat.le_succ last) name value hz.1 hz.2
      exact ⟨hsound, hdelivers.mono (Nat.le_succ last)⟩

/-- A line outside entries, which may be inside a special block. -/
theorem step_outside_extends {skipping : Int} {pending : List Directive} (raw : List Char) :
    Cursor.Extends path (last + 1) (last + 1)
      (step path ⟨.outside skipping, pending⟩ (last + 1) raw).1
      (step path ⟨.outside skipping, pending⟩ (last + 1) raw).2 := by
  simp only [step]
  split
  · exact extends_outside .empty (Nat.le_succ _)
  · exact stepOutside_extends path (last + 1) raw pending (classify raw)

/-- A line inside an entry, which a line of another block cuts off. -/
theorem step_inEntry_extends {pending : List Directive} (h : o.Placed path last)
    (raw : List Char) :
    Cursor.ExtendsOpen path o last (last + 1) (step path ⟨.inEntry o, pending⟩ (last + 1) raw).1
      (step path ⟨.inEntry o, pending⟩ (last + 1) raw).2 := by
  have hstarted : o.entry.line ≤ last := h.started
  simp only [step]
  split
  -- A boundary ends the entry on the line before and is then read as a line between entries.
  · obtain ⟨hsound, hdelivers⟩ := cutOff_sound h (cutOffMessage o.entry.key (last + 1))
    exact extendsOpen_end hsound hdelivers (by omega) (Nat.le_succ last)
      (stepOutside_extends path (last + 1) raw pending (classify raw))
  · exact stepInside_extends h raw pending (classify raw)

/-- One line: the cursor stays placed, and what may follow it may follow the cursor before. -/
theorem step_continues {c : Cursor} (h : c.Placed path last) (raw : List Char) :
    (step path c (last + 1) raw).1.Placed path (last + 1) ∧
      ∀ final z, last + 1 ≤ final →
        (step path c (last + 1) raw).1.Continues path (last + 1) final z →
        c.Continues path last final ((step path c (last + 1) raw).2 ++ z) := by
  obtain ⟨state, pending⟩ := c
  cases state with
  | outside skipping => exact step_outside_extends raw
  | inEntry o => exact step_inEntry_extends h raw

/-! ## A whole file -/

/-- What is read from a placed cursor is what may follow it; the induction is on the lines left. -/
theorem readLines_continues {c : Cursor} (ls : List (List Char)) (h : c.Placed path last) :
    c.Continues path last (last + ls.length) (readLines path c last ls) := by
  -- The end of the file is fixed, so the number of lines read and of lines left moves together.
  induction ls generalizing c last with
  | nil =>
      obtain ⟨state, pending⟩ := c
      cases state with
      | outside skipping => exact .empty
      | inEntry o => exact cutOff_sound h (endOfFileMessage o.entry.key)
  | cons raw rest ih =>
      rcases hs : step path c (last + 1) raw with ⟨c', y⟩
      obtain ⟨hplaced, hcontinues⟩ := step_continues h raw
      rw [hs] at hplaced hcontinues
      have hlen : last + 1 + rest.length = last + (raw :: rest).length := by
        rw [List.length_cons]; omega
      rw [readLines_cons hs, ← hlen]
      exact hcontinues _ _ (by omega) (ih hplaced)

/-- The entries of a file lie on its lines, one after the other, and every complaint points at a line
of the file and has the key of the entry there. -/
theorem read_sound (path : SourcePath) (text : String) :
    (read path text).Sound path 1 (Text.lines text.toList).length := by
  have hstart : Cursor.start.Placed path 0 := trivial
  have hread := readLines_continues (Text.lines text.toList) hstart
  rw [Nat.zero_add] at hread
  exact hread

end BibAudit.Bib
