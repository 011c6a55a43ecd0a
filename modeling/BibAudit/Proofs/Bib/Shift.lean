/-
# BibAudit.Proofs.Bib.Shift — reading the same lines further down a file.

Lines that stand `n` lines further down are read as they were, and everything that is yielded says so
many lines more.  That goes for the places of entries, fields and complaints, and for the text of one
complaint, which names the line that cut an entry off.
-/
import BibAudit.Proofs.Bib.Renumber

namespace BibAudit

/-! ## Entries further down -/

/-- The location, `n` lines further down. -/
def Location.shift (n : Nat) (l : Location) : Location :=
  { l with line := l.line + n }

/-- The field, `n` lines further down. -/
def Field.shift (n : Nat) (f : Field) : Field :=
  { f with line := f.line + n }

/-- The entry, `n` lines further down. -/
def Entry.shift (n : Nat) (e : Entry) : Entry :=
  { e with
    line := e.line + n
    endLine := e.endLine + n
    fields := e.fields.map fun f => (f.1, f.2.shift n) }

/-- The message about an entry, the line that it names being `n` lines further down. -/
def Bib.shiftMessage (n : Nat) (key message : String) : String :=
  match namedLine? key message with
  | some line => cutOffMessage key (line + n)
  | none => message

/-- The complaint, `n` lines further down, with the line that its message names. -/
def Complaint.shift (n : Nat) (c : Complaint) : Complaint :=
  { c with
    location := c.location.shift n
    message := match c.key with
      | some key => Bib.shiftMessage n key c.message
      | none => c.message
    related := c.related.map (Location.shift n) }

namespace Bib

/-! ## What is held between lines -/

/-- The open field, `n` lines further down. -/
def OpenField.shift (n : Nat) (f : OpenField) : OpenField :=
  { f with line := f.line + n }

/-- The open entry, `n` lines further down. -/
def OpenEntry.shift (n : Nat) (o : OpenEntry) : OpenEntry :=
  ⟨o.entry.shift n, o.field.map (OpenField.shift n)⟩

/-- The state, `n` lines further down. -/
def State.shift (n : Nat) : State → State
  | .outside skipping => .outside skipping
  | .inEntry o => .inEntry (o.shift n)

/-- The cursor, `n` lines further down. -/
def Cursor.shift (n : Nat) (c : Cursor) : Cursor :=
  ⟨c.state.shift n, c.pending⟩

/-- The yield, `n` lines further down. -/
def Yield.shift (n : Nat) (y : Yield) : Yield :=
  ⟨y.entries.map (Entry.shift n), y.complaints.map (Complaint.shift n)⟩

/-- What reading a line leaves and yields, `n` lines further down. -/
def shiftResult (n : Nat) (result : Cursor × Yield) : Cursor × Yield :=
  (result.1.shift n, result.2.shift n)

/-! ## Whole stretches -/

section Stretches

variable (n : Nat)

theorem Cursor.shift_eq (c : Cursor) : c.shift n = c.renumber (· + n) := by
  obtain ⟨state, pending⟩ := c
  cases state <;> rfl

theorem Yield.shift_eq (y : Yield) : y.shift n = y.renumber (· + n) := rfl

theorem monotone_shift : Monotone (· + n) :=
  fun _ _ h => Nat.add_le_add_right h n

theorem inStep_shift (last count : Nat) : InStep (· + n) last count :=
  fun line _ _ => Nat.add_right_comm line 1 n

/-- Lines that follow `n` more lines are read alike, and everything is `n` lines further down. -/
theorem readLines_shift (path : SourcePath) (c : Cursor) (last : Nat) (ls : List (List Char)) :
    readLines path (c.shift n) (last + n) ls = (readLines path c last ls).shift n := by
  rw [Cursor.shift_eq, Yield.shift_eq]
  exact readLines_renumber (monotone_shift n) path c last ls (inStep_shift n last ls.length)

/-- A stretch that follows `n` more lines leaves the reader where it was, `n` lines further down. -/
theorem stepAll_shift (path : SourcePath) (c : Cursor) (last : Nat) (ls : List (List Char)) :
    stepAll path (c.shift n) (last + n) ls = shiftResult n (stepAll path c last ls) := by
  rw [shiftResult, Cursor.shift_eq, Cursor.shift_eq, Yield.shift_eq]
  exact stepAll_renumber (monotone_shift n) path c last ls (inStep_shift n last ls.length)

end Stretches

end Bib

end BibAudit
