/-
# BibAudit.Proofs.Bib.Queue — directives that have waited since before.

Directives that wait when some lines begin reach the first entry of those lines, before its own, and
nothing else.  Two runs are compared, one of which has directives waiting: they stay in step while the
directives wait, then while the entry that took them is open, and are the same once it is yielded.
-/
import BibAudit.Proofs.Bib.Directives
import BibAudit.Proofs.Bib.Run

namespace BibAudit.Bib

open Text (lowerAscii lowerAscii_lowerAscii)

/-! ## Directives in a row -/

theorem eraseDups_append_eraseDups {α : Type} [DecidableEq α] (l m : List α) :
    (l ++ m.eraseDups).eraseDups = (l ++ m).eraseDups := by
  induction m using List.reverseRecOn with
  | nil => simp
  | append_singleton m a ih =>
      rw [eraseDups_concat]
      split
      · next h =>
          rw [ih, ← List.append_assoc, eraseDups_concat, if_pos (List.mem_append_right l h)]
      · next h =>
          rw [← List.append_assoc, ← List.append_assoc, eraseDups_concat, eraseDups_concat, ih]
          simp only [List.mem_append, List.mem_eraseDups]

theorem lookup_map_self (names : List String) (given : String → Option String) (check : String) :
    (names.map fun n => (n, given n)).lookup check =
      if check ∈ names then some (given check) else none := by
  induction names with
  | nil => rfl
  | cons n rest ih =>
      rw [List.map_cons, List.lookup_cons]
      by_cases h : check = n
      · subst h
        simp
      · have hbeq : (check == n) = false := by simpa using h
        rw [hbeq, ih]
        simp [h]

/-- The reason given last is that of the last directive. -/
theorem lookup_reverse_lastReasons (asked : List Directive) (check : String) :
    (lastReasons asked).reverse.lookup check = asked.reverse.lookup check := by
  rw [lastReasons, ← List.map_reverse, lookup_map_self]
  simp only [List.mem_reverse, List.mem_eraseDups]
  -- A check has a last directive exactly if it is among the names.
  cases hl : asked.reverse.lookup check with
  | none =>
      have hnot : check ∉ asked.map Prod.fst := by
        rw [List.lookup_eq_none_iff] at hl
        rintro hmem
        obtain ⟨d, hd, rfl⟩ := List.mem_map.mp hmem
        simpa using hl d (List.mem_reverse.mpr hd)
      rw [if_neg hnot]
  | some reason =>
      obtain ⟨before, after, hsplit, -⟩ := List.lookup_eq_some_iff.mp hl
      have hmem : (check, reason) ∈ asked := by
        rw [← List.mem_reverse, hsplit]
        simp
      rw [if_pos (List.mem_map_of_mem hmem)]
      rfl

/-- Last reasons add up to the same, whether directives are summed up before or not. -/
theorem lastReasons_append (q asked : List Directive) :
    lastReasons (q ++ lastReasons asked) = lastReasons (q ++ asked) := by
  have hkept : (lastReasons asked).map Prod.fst = (asked.map Prod.fst).eraseDups := by
    rw [lastReasons, List.map_map]
    exact List.map_id _
  have hnames : ((q ++ lastReasons asked).map Prod.fst).eraseDups =
      ((q ++ asked).map Prod.fst).eraseDups := by
    rw [List.map_append, hkept, eraseDups_append_eraseDups, List.map_append]
  have hlookup : ∀ check, (q ++ lastReasons asked).reverse.lookup check =
      (q ++ asked).reverse.lookup check := by
    intro check
    rw [List.reverse_append, List.lookup_append, lookup_reverse_lastReasons, List.reverse_append,
      List.lookup_append]
  show ((q ++ lastReasons asked).map Prod.fst).eraseDups.map (fun check =>
    (check, ((q ++ lastReasons asked).reverse.lookup check).join)) = lastReasons (q ++ asked)
  simp only [hnames, hlookup]
  rfl

/-- The directive with the name that an entry keeps. -/
def small (d : Directive) : Directive :=
  (lowerAscii d.1, d.2)

theorem foldl_suppress_small (asked : List Directive) (e : Entry) (he : e.suppressions = []) :
    asked.foldl (fun e d => e.suppress d.1 d.2) e =
      { e with suppressions := lastReasons (asked.map small) } := by
  have hsmall : (asked.map small).foldl (fun e d => e.suppress d.1 d.2) e =
      asked.foldl (fun e d => e.suppress d.1 d.2) e := by
    rw [List.foldl_map]
    simp only [small, Entry.suppress, lowerAscii_lowerAscii]
  rw [← hsmall]
  refine foldl_suppress _ e he ?_
  intro d hd
  obtain ⟨r, -, rfl⟩ := List.mem_map.mp hd
  exact lowerAscii_lowerAscii r.1

theorem map_small_lastReasons (asked : List Directive) :
    (lastReasons (asked.map small)).map small = lastReasons (asked.map small) := by
  refine (List.map_congr_left fun s hs => ?_).trans (List.map_id _)
  obtain ⟨check, hcheck, rfl⟩ := List.mem_map.mp hs
  obtain ⟨d, hd, rfl⟩ := List.mem_map.mp (List.mem_eraseDups.mp hcheck)
  obtain ⟨r, -, rfl⟩ := List.mem_map.mp hd
  exact Prod.ext (lowerAscii_lowerAscii r.1) rfl

/-! ## Entries that take the directives -/

/-- The entry, had it met the directives `q` before its own. -/
def after (q : List Directive) (e : Entry) : Entry :=
  (q ++ e.suppressions).foldl (fun e d => e.suppress d.1 d.2) { e with suppressions := [] }

theorem after_eq (q : List Directive) (e : Entry) :
    after q e = { e with suppressions := lastReasons ((q ++ e.suppressions).map small) } :=
  foldl_suppress_small _ _ rfl

theorem headerEntry_append (path : SourcePath) (line : Nat) (kind key : List Char)
    (q pending : List Directive) :
    headerEntry path line kind key (q ++ pending) =
      after q (headerEntry path line kind key pending) := by
  rw [after_eq, headerEntry, headerEntry, foldl_suppress_small _ _ rfl,
    foldl_suppress_small _ _ rfl]
  simp only [List.map_append]
  rw [map_small_lastReasons, lastReasons_append]

theorem insertField_after (q : List Directive) (e : Entry) (name value : String) (line : Nat) :
    (after q e).insertField name value line = after q (e.insertField name value line) := by
  have hhas : (after q e).hasField (lowerAscii name) = e.hasField (lowerAscii name) := by
    rw [after_eq]
    rfl
  simp only [Entry.insertField, hhas]
  split
  · rfl
  · rw [after_eq, after_eq]

theorem endAt_after (q : List Directive) (e : Entry) (line : Nat) :
    (after q e).endAt line = after q (e.endAt line) := by
  rw [after_eq, after_eq]
  rfl

theorem complainOf_after (q : List Directive) (e : Entry) (line : Nat) (message : String) :
    complainOf (after q e) line message = complainOf e line message := by
  rw [after_eq]
  rfl

theorem key_after (q : List Directive) (e : Entry) : (after q e).key = e.key := by
  rw [after_eq]

theorem line_after (q : List Directive) (e : Entry) : (after q e).line = e.line := by
  rw [after_eq]

/-- The open entry, had it met the directives `q` before its own. -/
def OpenEntry.after (q : List Directive) (o : OpenEntry) : OpenEntry :=
  { o with entry := Bib.after q o.entry }

/-- The yield, had its first entry met the directives `q` before its own. -/
def Yield.afterFirst (q : List Directive) (y : Yield) : Yield :=
  { y with entries := y.entries.modifyHead (after q) }

theorem Yield.afterFirst_complaining (q : List Directive) (cs : List Complaint) (y : Yield) :
    (complaining cs ++ y).afterFirst q = complaining cs ++ y.afterFirst q := rfl

theorem Yield.afterFirst_append (q : List Directive) {y : Yield} (h : y.entries ≠ []) (z : Yield) :
    (y ++ z).afterFirst q = y.afterFirst q ++ z := by
  obtain ⟨entries, complaints⟩ := y
  cases entries with
  | nil => exact absurd rfl h
  | cons e rest => rfl

theorem finishField_after (q : List Directive) (o : OpenEntry) :
    finishField (o.after q) = (after q (finishField o).1, (finishField o).2) := by
  obtain ⟨e, field⟩ := o
  cases field with
  | none => rfl
  | some f =>
      simp only [finishField, OpenEntry.after, insertField_after, complainOf_after]

theorem openField_after (q : List Directive) (o : OpenEntry) (line : Nat)
    (name value : List Char) :
    openField (o.after q) line name value =
      ((openField o line name value).1.after q, (openField o line name value).2) := by
  simp only [openField, finishField_after]
  rfl

theorem finish_after (q : List Directive) (o : OpenEntry) (endLine : Nat) :
    finish (o.after q) endLine = (finish o endLine).afterFirst q := by
  simp only [finish, finishField_after, endAt_after]
  rfl

theorem entries_finish_ne (o : OpenEntry) (endLine : Nat) : (finish o endLine).entries ≠ [] :=
  List.cons_ne_nil _ _

theorem entries_complaining_finish_ne (cs : List Complaint) (o : OpenEntry) (endLine : Nat) :
    (Yield.complaining cs ++ finish o endLine).entries ≠ [] :=
  entries_finish_ne o endLine

/-! ## Two runs in step -/

/-- The first cursor is the second one with the directives `q` still to be seen: they wait before all
others, or the open entry has taken them. -/
inductive Awaits (q : List Directive) : Cursor → Cursor → Prop
  | waiting (skipping : Int) (pending : List Directive) :
      Awaits q ⟨.outside skipping, q ++ pending⟩ ⟨.outside skipping, pending⟩
  | taken (o : OpenEntry) (pending : List Directive) :
      Awaits q ⟨.inEntry (o.after q), pending⟩ ⟨.inEntry o, pending⟩

/-- What a line gives with the directives `q` still to be seen, and without them: no entry is yielded
yet, or the first one has taken the directives and the runs are the same from there. -/
inductive Carried (q : List Directive) : Cursor × Yield → Cursor × Yield → Prop
  | held {c' c : Cursor} (h : Awaits q c' c) (cs : List Complaint) :
      Carried q (c', .complaining cs) (c, .complaining cs)
  | delivered (c : Cursor) {y : Yield} (h : y.entries ≠ []) : Carried q (c, y.afterFirst q) (c, y)

variable {q : List Directive} {c c' : Cursor}

theorem carried_headerRest (q : List Directive) (e : Entry) (line : Nat) (rest : List Char) :
    Carried q (⟨(headerRest (after q e) line rest).1, []⟩, (headerRest (after q e) line rest).2)
      (⟨(headerRest e line rest).1, []⟩, (headerRest e line rest).2) := by
  have hopen : ∀ name value, openField ⟨after q e, none⟩ line name value =
      ((openField ⟨e, none⟩ line name value).1.after q, (openField ⟨e, none⟩ line name value).2) :=
    openField_after q ⟨e, none⟩ line
  have htaken : Carried q (⟨.inEntry ⟨after q e, none⟩, []⟩, .empty)
      (⟨.inEntry ⟨e, none⟩, []⟩, .empty) := .held (.taken ⟨e, none⟩ []) []
  simp only [headerRest]
  split
  · exact htaken
  · have hfinish : finish ⟨after q e, none⟩ line = (finish ⟨e, none⟩ line).afterFirst q :=
      finish_after q ⟨e, none⟩ line
    rw [hfinish]
    exact .delivered _ (entries_finish_ne _ _)
  · split
    · exact htaken
    · split
      · simp only [hopen, finish_after, ← Yield.afterFirst_complaining]
        exact .delivered _ (entries_complaining_finish_ne _ _ line)
      · simp only [hopen]
        exact .held (.taken _ []) _

theorem carried_stepOutside (q : List Directive) (path : SourcePath) (line : Nat)
    (raw : List Char) (pending : List Directive) (kind : LineKind) :
    Carried q (stepOutside path line raw (q ++ pending) kind)
      (stepOutside path line raw pending kind) := by
  cases kind with
  | header kind key rest =>
      have hrest := carried_headerRest q (headerEntry path line kind key pending) line rest
      simp only [stepOutside, headerEntry_append]
      exact hrest
  | suppression check reason =>
      simp only [stepOutside, List.append_assoc]
      exact .held (.waiting 0 _) []
  | special => exact .held (.waiting _ pending) []
  | malformedHeader => exact .held (.waiting 0 pending) [complain path line malformedMessage]
  | close => exact .held (.waiting 0 pending) [complain path line strayCloseMessage]
  | blank | comment | text | fieldStart => exact .held (.waiting 0 pending) []

theorem carried_stepInside (q : List Directive) (o : OpenEntry) (line : Nat) (raw : List Char)
    (pending : List Directive) (kind : LineKind) :
    Carried q (stepInside (o.after q) line raw pending kind)
      (stepInside o line raw pending kind) := by
  cases kind with
  | close =>
      simp only [stepInside, finish_after]
      exact .delivered _ (entries_finish_ne o line)
  | fieldStart name value =>
      simp only [stepInside, openField_after]
      exact .held (.taken _ pending) _
  | comment =>
      have hinside : (o.after q).field = o.field := rfl
      simp only [stepInside, hinside]
      split
      · exact .held (.taken (o.extend raw) pending) []
      · exact .held (.taken o pending) []
  | blank => exact .held (.taken o pending) []
  | suppression check reason => exact .held (.taken o _) []
  | text | header | special | malformedHeader => exact .held (.taken (o.extend raw) pending) []

/-- One line keeps the two runs in step. -/
theorem carried_step (h : Awaits q c' c) (path : SourcePath) (line : Nat) (raw : List Char) :
    Carried q (step path c' line raw) (step path c line raw) := by
  cases h with
  | waiting skipping pending =>
      simp only [step]
      split
      · exact .held (.waiting _ pending) []
      · exact carried_stepOutside q path line raw pending (classify raw)
  | taken o pending =>
      simp only [step]
      split
      -- Both runs go on alike after the line that cuts the entry off.
      · have hentry : (o.after q).entry = after q o.entry := rfl
        rw [hentry, complainOf_after, key_after, line_after, finish_after,
          ← Yield.afterFirst_complaining,
          ← Yield.afterFirst_append q (entries_complaining_finish_ne _ o (line - 1))]
        exact .delivered _ (by simp [finish])
      · exact carried_stepInside q o line raw pending (classify raw)

theorem atEnd_after (h : Awaits q c' c) (last : Nat) :
    atEnd c' last = (atEnd c last).afterFirst q := by
  cases h with
  | waiting skipping pending => rfl
  | taken o pending =>
      have hentry : (o.after q).entry = after q o.entry := rfl
      simp only [atEnd, hentry, complainOf_after, key_after, line_after, finish_after,
        Yield.afterFirst_complaining]

/-- Directives that wait when some lines begin reach their first entry, before its own. -/
theorem readLines_after (h : Awaits q c' c) (path : SourcePath) (last : Nat)
    (ls : List (List Char)) :
    readLines path c' last ls = (readLines path c last ls).afterFirst q := by
  induction ls generalizing c' c last with
  | nil => exact atEnd_after h last
  | cons raw rest ih =>
      have hstep := carried_step h path (last + 1) raw
      rcases hs' : step path c' (last + 1) raw with ⟨d', y'⟩
      rcases hs : step path c (last + 1) raw with ⟨d, y⟩
      rw [hs', hs] at hstep
      rw [readLines_cons hs', readLines_cons hs]
      cases hstep with
      | held hawaits cs => rw [ih hawaits, ← Yield.afterFirst_complaining]
      -- Once an entry is out, both runs are the same, and what they yield further is left alone.
      | delivered _ hy => rw [Yield.afterFirst_append q hy]

end BibAudit.Bib
