/-
# BibAudit.Proofs.Bib.Run — reading a stretch of lines.

What a stretch of lines yields, and where it leaves the reader, without regard to how the file ends.
Stretches compose: reading two of them in a row is reading the second from where the first one
stopped, and reading a whole file is reading a stretch and then the rest.  An entry keeps what its
header gave it, the directives that waited there included; what is read later adds fields and lines.
-/
import BibAudit.Bib.Reader

namespace BibAudit

/-- The entry as its header left it: without fields, and with no line after the first. -/
def Entry.bare (e : Entry) : Entry :=
  { e with endLine := e.line, fields := [] }

namespace Bib

/-! ## Yields in a row -/

namespace Yield

@[simp] theorem empty_entries : Yield.empty.entries = [] := rfl

@[simp] theorem empty_complaints : Yield.empty.complaints = [] := rfl

@[simp] theorem complaining_entries (cs : List Complaint) : (complaining cs).entries = [] := rfl

@[simp] theorem complaining_complaints (cs : List Complaint) :
    (complaining cs).complaints = cs := rfl

theorem ext_iff {a b : Yield} : a = b ↔ a.entries = b.entries ∧ a.complaints = b.complaints := by
  cases a; cases b; simp

@[simp] theorem empty_append (y : Yield) : Yield.empty ++ y = y := by simp [ext_iff]

@[simp] theorem append_empty (y : Yield) : y ++ Yield.empty = y := by simp [ext_iff]

theorem append_assoc (a b c : Yield) : a ++ b ++ c = a ++ (b ++ c) := by simp [ext_iff]

end Yield

/-! ## Entries keep what their header gave them -/

/-- Directives reach the entry of a header, and nothing else of it. -/
theorem headerEntry_eq (path : SourcePath) (line : Nat) (kind key : List Char)
    (pending : List Directive) :
    headerEntry path line kind key pending =
      { Entry.new (String.ofList kind) (String.ofList key) path line with
        suppressions := (headerEntry path line kind key pending).suppressions } := by
  have hkeep : ∀ (ds : List Directive) (e : Entry),
      ds.foldl (fun e d => e.suppress d.1 d.2) e =
        { e with suppressions := (ds.foldl (fun e d => e.suppress d.1 d.2) e).suppressions } := by
    intro ds
    induction ds with
    | nil => intro e; rfl
    | cons d rest ih => intro e; exact ih (e.suppress d.1 d.2)
  exact hkeep pending _

theorem bare_finishField (o : OpenEntry) : (finishField o).1.bare = o.entry.bare := by
  rw [finishField]
  split
  · rfl
  · simp only [Entry.insertField]
    split <;> rfl

theorem finishField_entry (o : OpenEntry) :
    (finishField o).1.path = o.entry.path ∧ (finishField o).1.key = o.entry.key ∧
      (finishField o).1.line = o.entry.line := by
  have hbare := bare_finishField o
  unfold Entry.bare at hbare
  injection hbare with hkind hkey hpath hline
  exact ⟨hpath, hkey, hline⟩

/-! ## Stretches of lines -/

/-- Read lines that follow the first `last` ones: where the reader stands then, and what they
yield. -/
def stepAll (path : SourcePath) : Cursor → Nat → List (List Char) → Cursor × Yield
  | c, _, [] => (c, .empty)
  | c, last, raw :: rest =>
    let (c, yield) := step path c (last + 1) raw
    let (c, more) := stepAll path c (last + 1) rest
    (c, yield ++ more)

variable {path : SourcePath} {c c' c'' : Cursor} {last : Nat} {y z : Yield}

@[simp] theorem stepAll_nil : stepAll path c last [] = (c, .empty) := rfl

theorem stepAll_cons {raw : List Char} {rest : List (List Char)}
    (hs : step path c (last + 1) raw = (c', y))
    (hr : stepAll path c' (last + 1) rest = (c'', z)) :
    stepAll path c last (raw :: rest) = (c'', y ++ z) := by
  rw [stepAll, hs]
  dsimp only
  rw [hr]

theorem stepAll_singleton {raw : List Char} (h : step path c (last + 1) raw = (c', y)) :
    stepAll path c last [raw] = (c', y) := by
  rw [stepAll_cons h stepAll_nil, Yield.append_empty]

/-- One stretch after another. -/
theorem stepAll_append {ls ms : List (List Char)} (hl : stepAll path c last ls = (c', y))
    (hm : stepAll path c' (last + ls.length) ms = (c'', z)) :
    stepAll path c last (ls ++ ms) = (c'', y ++ z) := by
  induction ls generalizing c last y with
  | nil =>
      obtain ⟨rfl, rfl⟩ := Prod.mk.inj hl
      simpa using hm
  | cons raw rest ih =>
      rcases hs : step path c (last + 1) raw with ⟨c₁, y₁⟩
      rcases hr : stepAll path c₁ (last + 1) rest with ⟨c₂, y₂⟩
      obtain ⟨rfl, rfl⟩ := Prod.mk.inj ((stepAll_cons hs hr).symm.trans hl)
      have hlen : last + 1 + rest.length = last + (raw :: rest).length := by
        rw [List.length_cons]; omega
      rw [List.cons_append, stepAll_cons hs (ih hr (hlen ▸ hm)), Yield.append_assoc]

theorem readLines_cons {raw : List Char} {rest : List (List Char)}
    (h : step path c (last + 1) raw = (c', y)) :
    readLines path c last (raw :: rest) = y ++ readLines path c' (last + 1) rest := by
  rw [readLines, h]

/-- Reading to the end of the file begins by reading a stretch. -/
theorem readLines_append {ls rest : List (List Char)} (h : stepAll path c last ls = (c', y)) :
    readLines path c last (ls ++ rest) = y ++ readLines path c' (last + ls.length) rest := by
  induction ls generalizing c last y with
  | nil =>
      obtain ⟨rfl, rfl⟩ := Prod.mk.inj h
      simp
  | cons raw more ih =>
      rcases hs : step path c (last + 1) raw with ⟨c₁, y₁⟩
      rcases hr : stepAll path c₁ (last + 1) more with ⟨c₂, y₂⟩
      obtain ⟨rfl, rfl⟩ := Prod.mk.inj ((stepAll_cons hs hr).symm.trans h)
      have hlen : last + 1 + more.length = last + (raw :: more).length := by
        rw [List.length_cons]; omega
      rw [List.cons_append, readLines_cons hs, ih hr, hlen, Yield.append_assoc]

end Bib

end BibAudit
