/-
# BibAudit.Proofs.Bib.Displace — line numbers when lines are put into a file.

Lines put in after line `k` displace the later ones, and with them every number that speaks of a later
line: of an entry, a field or a complaint, and the one number that stands in the text of a message.
What a stretch of lines yields speaks of no lines but its own.  So displacing leaves alone what the
lines up to `k` yield, and shifts what the lines after it yield.
-/
import BibAudit.Proofs.Bib.Shift
import BibAudit.Proofs.Bib.Span
import BibAudit.Proofs.Bib.Standing

namespace BibAudit

/-! ## Displaced lines -/

/-- The number that a line has once `n` lines are put in after line `k`. -/
def displaced (k n line : Nat) : Nat :=
  if k < line then line + n else line

/-- The location, once `n` lines are put in after line `k`. -/
def Location.displace (k n : Nat) (l : Location) : Location :=
  { l with line := displaced k n l.line }

/-- The field, once `n` lines are put in after line `k`. -/
def Field.displace (k n : Nat) (f : Field) : Field :=
  { f with line := displaced k n f.line }

/-- The entry, once `n` lines are put in after line `k`. -/
def Entry.displace (k n : Nat) (e : Entry) : Entry :=
  { e with
    line := displaced k n e.line
    endLine := displaced k n e.endLine
    fields := e.fields.map fun f => (f.1, f.2.displace k n) }

namespace Bib

/-- The message about an entry, once `n` lines are put in after line `k`: the line that it names is
displaced. -/
def displaceMessage (k n : Nat) (key message : String) : String :=
  match namedLine? key message with
  | some line => if k < line then cutOffMessage key (line + n) else message
  | none => message

end Bib

/-- The complaint, once `n` lines are put in after line `k`. -/
def Complaint.displace (k n : Nat) (c : Complaint) : Complaint :=
  { c with
    location := c.location.displace k n
    message := match c.key with
      | some key => Bib.displaceMessage k n key c.message
      | none => c.message
    related := c.related.map (Location.displace k n) }

namespace Bib

/-- The yield, once `n` lines are put in after line `k`. -/
def Yield.displace (k n : Nat) (y : Yield) : Yield :=
  ⟨y.entries.map (Entry.displace k n), y.complaints.map (Complaint.displace k n)⟩

theorem Yield.displace_append (k n : Nat) (y z : Yield) :
    (y ++ z).displace k n = y.displace k n ++ z.displace k n := by
  simp [Yield.ext_iff, Yield.displace]

variable {path : SourcePath} {first last final line k n : Nat} {c : Complaint} {y : Yield}

/-! ## The line that a message names -/

/-- If the message of a complaint names a line, then one from `first` to `final`. -/
def NamesWithin (first final : Nat) (c : Complaint) : Prop :=
  ∀ key, c.key = some key → ∀ named, namedLine? key c.message = some named →
    first ≤ named ∧ named ≤ final

theorem NamesWithin.mono (h : NamesWithin line line c) (hf : first ≤ line) (hl : line ≤ final) :
    NamesWithin first final c := by
  intro key hkey named hnamed
  have hline := h key hkey named hnamed
  omega

theorem namesWithin_complainOf {e : Entry} {message : String}
    (h : ∀ named, namedLine? e.key message = some named → first ≤ named ∧ named ≤ final) :
    NamesWithin first final (complainOf e line message) := by
  intro key hkey named hnamed
  obtain rfl : e.key = key := Option.some.inj hkey
  exact h named hnamed

theorem namesWithin_finishField (o : OpenEntry) :
    ∀ c ∈ (finishField o).2, NamesWithin first final c := by
  obtain ⟨e, field⟩ := o
  cases field with
  | none => simp [finishField]
  | some f =>
      intro c hc
      simp only [finishField, List.mem_map] at hc
      obtain ⟨error, -, rfl⟩ := hc
      refine namesWithin_complainOf fun named hnamed => ?_
      rw [namedLine?_mismatchMessage] at hnamed
      cases hnamed

theorem namesWithin_stepOutside (path : SourcePath) (line : Nat) (raw : List Char)
    (pending : List Directive) (kind : LineKind) :
    ∀ c ∈ (stepOutside path line raw pending kind).2.complaints, NamesWithin first final c := by
  -- Complaints between entries have no key, those of a header line are about a field.
  have hkeyless : ∀ message, NamesWithin first final (complain path line message) := by
    intro message key hkey
    cases hkey
  cases kind with
  | header kind key rest =>
      rw [stepOutside, headerRest_eq]
      cases closesItself rest with
      | true => exact namesWithin_finishField _
      | false => simp
  | malformedHeader => simpa [stepOutside] using hkeyless malformedMessage
  | close => simpa [stepOutside] using hkeyless strayCloseMessage
  | _ => simp [stepOutside]

theorem namesWithin_stepInside (o : OpenEntry) (line : Nat) (raw : List Char)
    (pending : List Directive) (kind : LineKind) :
    ∀ c ∈ (stepInside o line raw pending kind).2.complaints, NamesWithin first final c := by
  cases kind with
  | close => exact namesWithin_finishField o
  | fieldStart name value => exact namesWithin_finishField o
  | _ => simp [stepInside]

/-- A message names no line but the one on which it was made. -/
theorem namesWithin_step (path : SourcePath) (cur : Cursor) (line : Nat) (raw : List Char) :
    ∀ c ∈ (step path cur line raw).2.complaints, NamesWithin line line c := by
  obtain ⟨state, pending⟩ := cur
  cases state with
  | outside skipping =>
      simp only [step]
      split
      · simp
      · exact namesWithin_stepOutside path line raw pending (classify raw)
  | inEntry o =>
      simp only [step]
      split
      · intro c hc
        rcases List.mem_append.mp hc with hc | hc
        · rcases List.mem_append.mp hc with hc | hc
          · obtain rfl := List.mem_singleton.mp hc
            refine namesWithin_complainOf fun named hnamed => ?_
            rw [namedLine?_cutOffMessage] at hnamed
            obtain rfl := Option.some.inj hnamed
            exact ⟨Nat.le_refl _, Nat.le_refl _⟩
          · exact namesWithin_finishField o c hc
        · exact namesWithin_stepOutside path line raw pending (classify raw) c hc
      · exact namesWithin_stepInside o line raw pending (classify raw)

theorem namesWithin_atEnd (cur : Cursor) (last : Nat) :
    ∀ c ∈ (atEnd cur last).complaints, NamesWithin first final c := by
  obtain ⟨state, pending⟩ := cur
  cases state with
  | outside skipping => simp [atEnd]
  | inEntry o =>
      intro c hc
      rcases List.mem_append.mp hc with hc | hc
      · obtain rfl := List.mem_singleton.mp hc
        refine namesWithin_complainOf fun named hnamed => ?_
        rw [namedLine?_endOfFileMessage] at hnamed
        cases hnamed
      · exact namesWithin_finishField o c hc

/-- The messages of some lines name none but these lines; the induction is on the lines left. -/
theorem namesWithin_readLines (path : SourcePath) (cur : Cursor) (last : Nat)
    (ls : List (List Char)) :
    ∀ c ∈ (readLines path cur last ls).complaints, NamesWithin (last + 1) (last + ls.length) c := by
  induction ls generalizing cur last with
  | nil => exact namesWithin_atEnd cur last
  | cons raw rest ih =>
      rcases hs : step path cur (last + 1) raw with ⟨next, y⟩
      have hstep := namesWithin_step path cur (last + 1) raw
      rw [hs] at hstep
      rw [readLines_cons hs, List.length_cons]
      intro c hc
      rcases List.mem_append.mp hc with hc | hc
      · exact (hstep c hc).mono (Nat.le_refl _) (by omega)
      · intro key hkey named hnamed
        have hline := ih next (last + 1) c hc key hkey named hnamed
        omega

/-! ## What a stretch speaks of -/

/-- Every line that the yield speaks of is one from `first` to `final`. -/
structure Yield.Within (first final : Nat) (y : Yield) : Prop where
  entries : ∀ e ∈ y.entries, first ≤ e.line ∧ e.endLine ≤ final ∧ e.WellPlaced
  complaints : ∀ c ∈ y.complaints,
    first ≤ c.location.line ∧ c.location.line ≤ final ∧ c.related = [] ∧ NamesWithin first final c

theorem within_of_sound (h : y.Sound path first final)
    (hn : ∀ c ∈ y.complaints, NamesWithin first final c) : y.Within first final where
  entries e he := (h.entries e he).2
  complaints c hc :=
    ⟨(h.complaints c hc).2.1, (h.complaints c hc).2.2, (h.origin c hc).2, hn c hc⟩

/-! ## Lines before and after -/

theorem displaced_of_le (h : line ≤ k) : displaced k n line = line := by
  rw [displaced, if_neg (by omega)]

theorem displaced_of_lt (h : k < line) : displaced k n line = line + n := by
  rw [displaced, if_pos h]

theorem displace_eq_of_endLine_le {e : Entry} (h : e.WellPlaced) (hk : e.endLine ≤ k) (n : Nat) :
    e.displace k n = e := by
  have hfields : (e.fields.map fun f => (f.1, f.2.displace k n)) = e.fields := by
    refine (List.map_congr_left fun f hf => ?_).trans (List.map_id _)
    have hline := (h.fields f hf).2
    exact Prod.ext rfl (by rw [Field.displace, displaced_of_le (by omega)]; rfl)
  rw [Entry.displace, hfields, displaced_of_le (h.closes.trans hk), displaced_of_le hk]

theorem displace_eq_shift_of_lt_line {e : Entry} (h : e.WellPlaced) (hk : k < e.line) (n : Nat) :
    e.displace k n = e.shift n := by
  have hfields : (e.fields.map fun f => (f.1, f.2.displace k n)) =
      e.fields.map fun f => (f.1, f.2.shift n) := by
    refine List.map_congr_left fun f hf => ?_
    have hline := (h.fields f hf).1
    exact Prod.ext rfl (by rw [Field.displace, displaced_of_lt (by omega)]; rfl)
  have hend := h.closes
  rw [Entry.displace, hfields, displaced_of_lt hk, displaced_of_lt (by omega)]
  rfl

theorem displace_eq_of_line_le (hl : c.location.line ≤ final) (hr : c.related = [])
    (hn : NamesWithin first final c) (hk : final ≤ k) (n : Nat) : c.displace k n = c := by
  obtain ⟨location, key, check, message, related⟩ := c
  obtain rfl : related = [] := hr
  have hlocation : location.displace k n = location := by
    rw [Location.displace, displaced_of_le (hl.trans hk)]
  cases key with
  | none => simp [Complaint.displace, hlocation]
  | some key =>
      have hmessage : displaceMessage k n key message = message := by
        cases hnamed : namedLine? key message with
        | none => simp only [displaceMessage, hnamed]
        | some named =>
            have hline := hn key rfl named hnamed
            simp only [displaceMessage, hnamed]
            rw [if_neg (by omega)]
      simp [Complaint.displace, hlocation, hmessage]

theorem displace_eq_shift_of_lt (hl : first ≤ c.location.line) (hr : c.related = [])
    (hn : NamesWithin first final c) (hk : k < first) (n : Nat) : c.displace k n = c.shift n := by
  obtain ⟨location, key, check, message, related⟩ := c
  obtain rfl : related = [] := hr
  have hlocation : location.displace k n = location.shift n := by
    rw [Location.displace, displaced_of_lt (Nat.lt_of_lt_of_le hk hl)]
    rfl
  cases key with
  | none => simp [Complaint.displace, Complaint.shift, hlocation]
  | some key =>
      have hmessage : displaceMessage k n key message = shiftMessage n key message := by
        cases hnamed : namedLine? key message with
        | none => simp only [displaceMessage, shiftMessage, hnamed]
        | some named =>
            have hline := hn key rfl named hnamed
            simp only [displaceMessage, shiftMessage, hnamed]
            rw [if_pos (by omega)]
      simp [Complaint.displace, Complaint.shift, hlocation, hmessage]

/-- What is said of lines up to `k` stays. -/
theorem Yield.Within.displace_eq (h : y.Within first final) (hk : final ≤ k) (n : Nat) :
    y.displace k n = y := by
  refine Yield.ext_iff.mpr ⟨?_, ?_⟩
  · refine (List.map_congr_left fun e he => ?_).trans (List.map_id _)
    obtain ⟨-, hend, hwell⟩ := h.entries e he
    exact displace_eq_of_endLine_le hwell (hend.trans hk) n
  · refine (List.map_congr_left fun c hc => ?_).trans (List.map_id _)
    obtain ⟨-, hend, hrelated, hnamed⟩ := h.complaints c hc
    exact displace_eq_of_line_le hend hrelated hnamed hk n

/-- What is said of lines after `k` is shifted. -/
theorem Yield.Within.displace_eq_shift (h : y.Within first final) (hk : k < first) (n : Nat) :
    y.displace k n = y.shift n := by
  refine Yield.ext_iff.mpr ⟨?_, ?_⟩
  · refine List.map_congr_left fun e he => ?_
    obtain ⟨hstart, -, hwell⟩ := h.entries e he
    exact displace_eq_shift_of_lt_line hwell (by omega) n
  · refine List.map_congr_left fun c hc => ?_
    obtain ⟨hstart, -, hrelated, hnamed⟩ := h.complaints c hc
    exact displace_eq_shift_of_lt hstart hrelated hnamed hk n

end Bib

end BibAudit
