/-
# BibAudit.Proofs.Bib.Account — what a file is to be complained about.

The account of a file goes over its lines and says for each of them, from the lines before and after
it, what is wrong there: a malformed header; a closing brace with nothing open; an entry that begins
there and that no closing line ends; the fields of that entry whose final values do not match their
braces.  Reading the file makes these complaints, each as often as the account has it, and no others;
only the order differs, as an entry is complained about when it ends and not when it begins.

The invariant of the reader is that what it has said, and what it still owes for the open entry, is
the account of the lines so far.
-/
import BibAudit.Proofs.Bib.OpenField

namespace BibAudit.Bib

variable {before : List (List Char)} {raw : List Char} {rest : List (List Char)} {c : Cursor}
  {o : OpenEntry} {last : Nat}

/-! ## Fields as they stand in a file -/

/-- A field that starts on a line, with its value as it stands on all its lines. -/
structure WrittenField where
  name : List Char
  value : List Char
  line : Nat

/-- The value with the lines that continue it: texts, and comments as long as a brace is open, until
another field starts or the entry ends. -/
def continued (value : List Char) : List (List Char) → List Char
  | [] => value
  | raw :: rest =>
    match classify raw with
    | .text => continued (value ++ ' ' :: Text.trim raw) rest
    | .comment =>
      continued (if 0 < Value.balance value then value ++ ' ' :: Text.trim raw else value) rest
    | .blank | .suppression .. => continued value rest
    | .fieldStart .. | .close | .header .. | .special | .malformedHeader => value

/-- The field with the lines that continue its value. -/
def WrittenField.through (after : List (List Char)) (f : WrittenField) : WrittenField :=
  { f with value := continued f.value after }

/-- The fields that start on lines of an entry, which follow the first `last` lines of the file. -/
def fieldsOn (last : Nat) : List (List Char) → List WrittenField
  | [] => []
  | raw :: rest =>
    match classify raw with
    | .fieldStart name value =>
      WrittenField.through rest ⟨name, Text.trim value, last + 1⟩ :: fieldsOn (last + 1) rest
    | .close | .header .. | .special | .malformedHeader => []
    | .blank | .comment | .suppression .. | .text => fieldsOn (last + 1) rest

/-- The complaint about a field of the entry with this key whose final value does not match its
braces. -/
def mismatchOf (path : SourcePath) (key : String) (f : WrittenField) : List Complaint :=
  (Value.scanField (finishedValue f.value)).error.toList.map fun e =>
    (complain path f.line (mismatchMessage (String.ofList f.name) e)).about key

/-! ## The account -/

/-- The complaint about an entry that begins on `line` and goes on after the first `last` lines of
the file, unless a closing line ends it. -/
def unclosed (path : SourcePath) (key : String) (line last : Nat) :
    List (List Char) → List Complaint
  | [] => [(complain path line (endOfFileMessage key)).about key]
  | raw :: rest =>
    match classify raw with
    | .close => []
    | .header .. | .special | .malformedHeader =>
      [(complain path line (cutOffMessage key (last + 1))).about key]
    | .blank | .comment | .suppression .. | .fieldStart .. | .text =>
      unclosed path key line (last + 1) rest

/-- What an entry that begins on `line` is complained about after the first `last` lines of the file,
with a field open there or not. -/
def entryAccount (path : SourcePath) (key : String) (line last : Nat)
    (field : Option WrittenField) (after : List (List Char)) : List Complaint :=
  unclosed path key line last after ++
    (field.toList.map (WrittenField.through after) ++ fieldsOn last after).flatMap
      (mismatchOf path key)

/-- The field on a header line. -/
def headerField (line : Nat) (rest : List Char) : Option WrittenField :=
  (headerField? rest).map fun f => ⟨f.1, Text.trim f.2, line⟩

/-- What the entry of a header is complained about, which may close itself on the header's line. -/
def headerAccount (path : SourcePath) (key : String) (line : Nat) (rest : List Char)
    (after : List (List Char)) : List Complaint :=
  if closesItself rest then (headerField line rest).toList.flatMap (mismatchOf path key)
  else entryAccount path key line line (headerField line rest) after

/-- What a line is complained about, and what the entry that begins there. -/
def lineAccount (path : SourcePath) (before : List (List Char)) (raw : List Char)
    (after : List (List Char)) : List Complaint :=
  let line := before.length + 1
  match classify raw with
  | .malformedHeader => [complain path line malformedMessage]
  | .close =>
    if entryOpen before || blockOpen before then [] else [complain path line strayCloseMessage]
  | .header _ key rest => headerAccount path (String.ofList key) line rest after
  | .blank | .comment | .suppression .. | .special | .fieldStart .. | .text => []

/-- What the lines after some others are complained about. -/
def accountOn (path : SourcePath) (before : List (List Char)) :
    List (List Char) → List Complaint
  | [] => []
  | raw :: after =>
    lineAccount path before raw after ++ accountOn path (before ++ [raw]) after

/-! ## What the reader owes -/

/-- The field as it stands so far. -/
def OpenField.written (f : OpenField) : WrittenField :=
  ⟨f.name, f.value, f.line⟩

/-- What is still to be complained about for the entry that is open. -/
def Cursor.owes (last : Nat) (after : List (List Char)) (c : Cursor) : List Complaint :=
  match c.state with
  | .outside _ => []
  | .inEntry o =>
    entryAccount o.entry.path o.entry.key o.entry.line last (o.field.map OpenField.written) after

/-- The open field counts the braces of its value so far. -/
def OpenEntry.Counts (o : OpenEntry) : Prop :=
  ∀ f ∈ o.field, f.depth = Value.balance f.value

/-- The open field of the entry that is open, if there is one, counts the braces of its value. -/
def Cursor.Counts (c : Cursor) : Prop :=
  match c.state with
  | .outside _ => True
  | .inEntry o => o.Counts

theorem complaints_finishField (o : OpenEntry) :
    (finishField o).2 = (o.field.map OpenField.written).toList.flatMap
      (mismatchOf o.entry.path o.entry.key) := by
  obtain ⟨e, field⟩ := o
  cases field with
  | none => rfl
  | some f =>
      simp only [finishField, Option.map_some, Option.toList_some, List.flatMap_singleton, mismatchOf]
      rfl

/-- What an entry is owed when it ends: the complaint about the field that is open. -/
theorem complaints_finish (o : OpenEntry) (line : Nat) :
    (finish o line).complaints = (o.field.map OpenField.written).toList.flatMap
      (mismatchOf o.entry.path o.entry.key) :=
  complaints_finishField o

/-- A header is owed what its entry is to be complained about, or complained about it at once. -/
theorem account_headerRest (e : Entry) (rest : List Char) (pending : List Directive)
    (after : List (List Char)) :
    (headerRest e e.line rest).2.complaints ++
        Cursor.owes e.line after ⟨(headerRest e e.line rest).1, pending⟩ =
      headerAccount e.path e.key e.line rest after := by
  have hfield : (headerOpen e e.line rest).field.map OpenField.written = headerField e.line rest := by
    rw [headerOpen, headerField, Option.map_map]
    rfl
  rw [headerRest_eq, headerAccount]
  split
  · show (finish (headerOpen e e.line rest) e.line).complaints ++ [] = _
    rw [complaints_finish, hfield, List.append_nil]
    rfl
  · show entryAccount _ _ _ _ ((headerOpen e e.line rest).field.map OpenField.written) _ = _
    rw [hfield]
    rfl

/-- A line between entries: what it is complained about at once, or owed for the entry that begins
there. -/
theorem account_stepOutside (path : SourcePath) (pending : List Directive)
    (hc : classify raw = .close → entryOpen before = false ∧ blockOpen before = false)
    (after : List (List Char)) :
    (stepOutside path (before.length + 1) raw pending (classify raw)).2.complaints ++
        (stepOutside path (before.length + 1) raw pending (classify raw)).1.owes
          (before.length + 1) after =
      lineAccount path before raw after := by
  cases hkind : classify raw with
  | close =>
      obtain ⟨hentry, hblock⟩ := hc hkind
      simp only [lineAccount, hkind, hentry, hblock]
      rfl
  | header kind key rest =>
      simp only [lineAccount, hkind, stepOutside]
      have hrest := account_headerRest (headerEntry path (before.length + 1) kind key pending)
        rest [] after
      rw [headerEntry_eq] at hrest ⊢
      exact hrest
  | _ =>
      simp only [lineAccount, hkind]
      rfl

/-- The line neither ends an entry nor starts a field in it. -/
def LineKind.goesOn : LineKind → Bool
  | .blank | .comment | .suppression .. | .text => true
  | _ => false

/-- Over a line that goes on with the entry, what is owed stays the same if the open field takes from
the line what is its own. -/
theorem entryAccount_goesOn {field field' : Option WrittenField} (path : SourcePath) (key : String)
    (line last : Nat) (hr : (classify raw).goesOn = true)
    (hf : field'.map (WrittenField.through rest) = field.map (WrittenField.through (raw :: rest))) :
    entryAccount path key line (last + 1) field' rest =
      entryAccount path key line last field (raw :: rest) := by
  have hunclosed : unclosed path key line last (raw :: rest) =
      unclosed path key line (last + 1) rest := by
    rw [unclosed]
    cases hkind : classify raw <;> simp_all [LineKind.goesOn]
  have hfields : fieldsOn last (raw :: rest) = fieldsOn (last + 1) rest := by
    rw [fieldsOn]
    cases hkind : classify raw <;> simp_all [LineKind.goesOn]
  rw [entryAccount, entryAccount, hunclosed, hfields, ← Option.toList_map, hf, Option.toList_map]

/-- A line that is joined on to the open field goes on with its value. -/
theorem through_extend (f : OpenField)
    (hr : classify raw = .text ∨ classify raw = .comment ∧ 0 < Value.balance f.value) :
    (f.extend (Text.trim raw)).written.through rest = f.written.through (raw :: rest) := by
  rcases hr with hkind | ⟨hkind, hopen⟩
  · simp only [WrittenField.through, OpenField.written, OpenField.extend, continued, hkind]
  · simp only [WrittenField.through, OpenField.written, OpenField.extend, continued, hkind, hopen,
      if_true]

/-- A line that the open field passes over does not change its value. -/
theorem through_skip (f : WrittenField)
    (hr : classify raw = .blank ∨ (∃ check reason, classify raw = .suppression check reason) ∨
      classify raw = .comment ∧ Value.balance f.value ≤ 0) :
    f.through rest = f.through (raw :: rest) := by
  rcases hr with hkind | ⟨check, reason, hkind⟩ | ⟨hkind, hclosed⟩
  · simp only [WrittenField.through, continued, hkind]
  · simp only [WrittenField.through, continued, hkind]
  · simp only [WrittenField.through, continued, hkind, Int.not_lt.mpr hclosed, if_false]

/-- A line inside an entry that does not end it by its kind: what is owed before it is what the line
is complained about and what is owed after it. -/
theorem account_stepInside (o : OpenEntry) (pending : List Directive)
    (hc : o.Counts) (hr : (classify raw).isBoundary = false) (rest : List (List Char)) :
    ((stepInside o (last + 1) raw pending (classify raw)).2.complaints ++
        (stepInside o (last + 1) raw pending (classify raw)).1.owes (last + 1) rest).Perm
      (Cursor.owes last (raw :: rest) ⟨.inEntry o, pending⟩) := by
  obtain ⟨e, field⟩ := o
  cases hkind : classify raw with
  | header | special | malformedHeader =>
      rw [hkind] at hr
      cases hr
  | close =>
      have hthrough : WrittenField.through (raw :: rest) = id := by
        funext f
        simp only [WrittenField.through, continued, hkind, id]
      simp only [stepInside, Cursor.owes, complaints_finish, entryAccount, unclosed, fieldsOn, hkind,
        hthrough, List.map_id, List.append_nil, List.nil_append]
      rfl
  | fieldStart name value =>
      have hthrough : WrittenField.through (raw :: rest) = id := by
        funext f
        simp only [WrittenField.through, continued, hkind, id]
      obtain ⟨hpath, hkey, hline⟩ := finishField_entry ⟨e, field⟩
      show ((finishField ⟨e, field⟩).2 ++ entryAccount (finishField ⟨e, field⟩).1.path
        (finishField ⟨e, field⟩).1.key (finishField ⟨e, field⟩).1.line (last + 1)
        (some ⟨name, Text.trim value, last + 1⟩) rest).Perm
          (entryAccount e.path e.key e.line last (field.map OpenField.written) (raw :: rest))
      simp only [complaints_finishField, hpath, hkey, hline, entryAccount, unclosed, fieldsOn, hkind,
        hthrough, List.map_id, Option.toList_some, List.map_cons, List.map_nil,
        List.singleton_append, List.flatMap_append]
      exact List.perm_append_comm_assoc _ _ _
  | comment =>
      have hgoes : (classify raw).goesOn = true := by rw [hkind]; rfl
      cases field with
      | none => exact .of_eq (entryAccount_goesOn _ _ _ _ hgoes rfl)
      | some f =>
          have hdepth : f.depth = Value.balance f.value := hc f rfl
          simp only [stepInside, Option.any_some, OpenField.insideBraces, hdepth, decide_eq_true_eq]
          split
          · next hopen =>
              refine .of_eq (entryAccount_goesOn _ _ _ _ hgoes ?_)
              exact congrArg some (through_extend f (.inr ⟨hkind, hopen⟩))
          · next hclosed =>
              refine .of_eq (entryAccount_goesOn _ _ _ _ hgoes ?_)
              exact congrArg some (through_skip _ (.inr (.inr ⟨hkind, Int.not_lt.mp hclosed⟩)))
  | text =>
      refine .of_eq (entryAccount_goesOn _ _ _ _ (by rw [hkind]; rfl) ?_)
      cases field with
      | none => rfl
      | some f => exact congrArg some (through_extend f (.inl hkind))
  | blank =>
      refine .of_eq (entryAccount_goesOn _ _ _ _ (by rw [hkind]; rfl) ?_)
      exact Option.map_congr fun f _ => through_skip f (.inl hkind)
  | suppression check reason =>
      refine .of_eq (entryAccount_goesOn _ _ _ _ (by rw [hkind]; rfl) ?_)
      exact Option.map_congr fun f _ => through_skip f (.inr (.inl ⟨check, reason, hkind⟩))

/-! ## Lines one after another -/

theorem counts_iff : c.Counts ↔ ∀ f ∈ c.field?, f.depth = Value.balance f.value := by
  obtain ⟨state, pending⟩ := c
  cases state with
  | outside skipping => exact ⟨fun _ f hf => (by cases hf), fun _ => trivial⟩
  | inEntry o => exact Iff.rfl

/-- The reader counts the braces of the open field line by line. -/
theorem counts_step (h : c.Counts) (path : SourcePath) (line : Nat) (raw : List Char) :
    (step path c line raw).1.Counts := by
  rw [counts_iff] at h ⊢
  intro g hg
  cases field_step hg with
  | starts => rfl
  | passed hf => exact h g hf
  | joined hf =>
      show _ + _ = Value.balance (_ ++ ' ' :: _)
      rw [balance_join, h _ hf]

/-- A line inside an entry or a special block that ends neither by its kind is not complained about
itself. -/
theorem lineAccount_inside (path : SourcePath) (ho : (entryOpen before || blockOpen before) = true)
    (hr : (classify raw).isBoundary = false) (after : List (List Char)) :
    lineAccount path before raw after = [] := by
  cases hkind : classify raw with
  | close => simp only [lineAccount, hkind, ho, if_true]
  | header | special | malformedHeader =>
      rw [hkind] at hr
      cases hr
  | _ => simp only [lineAccount, hkind]

/-- The end of the file takes what is owed. -/
theorem account_atEnd (c : Cursor) (last : Nat) :
    (atEnd c last).complaints = c.owes last [] := by
  obtain ⟨state, pending⟩ := c
  cases state with
  | outside skipping => rfl
  | inEntry o =>
      have hthrough : WrittenField.through [] = id := rfl
      simp only [atEnd, Cursor.owes, Yield.append_complaints, Yield.complaining_complaints,
        complaints_finish, entryAccount, unclosed, fieldsOn, hthrough, List.map_id, List.append_nil]
      rfl

/-- A boundary cuts the open entry off, and takes what is owed for it. -/
theorem account_cutOff (o : OpenEntry) (line : Nat) (pending : List Directive)
    (hr : (classify raw).isBoundary = true) (rest : List (List Char)) :
    complainOf o.entry o.entry.line (cutOffMessage o.entry.key (last + 1)) ::
        (finish o line).complaints =
      Cursor.owes last (raw :: rest) ⟨.inEntry o, pending⟩ := by
  cases hkind : classify raw with
  | header | special | malformedHeader =>
      have hthrough : WrittenField.through (raw :: rest) = id := by
        funext f
        simp only [WrittenField.through, continued, hkind, id]
      simp only [Cursor.owes, complaints_finish, entryAccount, unclosed, fieldsOn, hkind, hthrough,
        List.map_id, List.append_nil, List.singleton_append]
      rfl
  | _ =>
      rw [hkind] at hr
      cases hr

/-- One line: the account of the line is what is complained about there, with the change of what is
owed. -/
theorem account_step (hf : c.Follows before) (hc : c.Counts) (path : SourcePath)
    (raw : List Char) (rest : List (List Char)) :
    ((step path c (before.length + 1) raw).2.complaints ++
        (step path c (before.length + 1) raw).1.owes (before.length + 1) rest).Perm
      (c.owes before.length (raw :: rest) ++ lineAccount path before raw rest) := by
  obtain ⟨state, pending⟩ := c
  cases state with
  | outside skipping =>
      obtain ⟨hentry, hblock⟩ := hf
      simp only [step]
      split
      · next hskips =>
          obtain ⟨hpos, hr⟩ := skips_iff.mp hskips
          have hopen : (entryOpen before || blockOpen before) = true := by
            rw [hblock.open_iff.mpr hpos, Bool.or_true]
          rw [lineAccount_inside path hopen hr]
          exact .refl []
      · next hreads =>
          refine .of_eq (account_stepOutside path pending ?_ rest)
          intro hclose
          refine ⟨hentry, ?_⟩
          rw [Bool.eq_false_iff]
          intro hopen
          have hboundary := hblock.isBoundary_of_read hreads hopen
          rw [hclose] at hboundary
          cases hboundary
  | inEntry o =>
      obtain ⟨hentry, hblock⟩ := hf
      simp only [step]
      split
      · next hends =>
          have hclose : classify raw = .close →
              entryOpen before = false ∧ blockOpen before = false := by
            intro hclose
            rw [hclose] at hends
            cases hends
          rw [← account_stepOutside path pending hclose rest,
            ← account_cutOff o _ pending hends rest]
          refine .of_eq ?_
          simp only [Yield.append_complaints, Yield.complaining_complaints, List.append_assoc,
            List.cons_append, List.nil_append]
          rfl
      · next hstays =>
          have hr : (classify raw).isBoundary = false := by simpa using hstays
          have hopen : (entryOpen before || blockOpen before) = true := by
            rw [hentry, Bool.true_or]
          rw [lineAccount_inside path hopen hr, List.append_nil]
          exact account_stepInside o pending hc hr rest

/-- What the reader complains about from here on is what it owes and the account of the lines to
come. -/
theorem account_readLines (hf : c.Follows before) (hc : c.Counts) (path : SourcePath)
    (ls : List (List Char)) :
    (readLines path c before.length ls).complaints.Perm
      (c.owes before.length ls ++ accountOn path before ls) := by
  induction ls generalizing c before with
  | nil =>
      rw [accountOn, List.append_nil]
      exact .of_eq (account_atEnd c before.length)
  | cons raw rest ih =>
      rcases hs : step path c (before.length + 1) raw with ⟨c', y⟩
      have hstep := account_step hf hc path raw rest
      have hf' := follows_step hf path (before.length + 1) raw
      have hc' := counts_step hc path (before.length + 1) raw
      rw [hs] at hstep hf' hc'
      have hrest := ih hf' hc'
      rw [List.length_append, List.length_singleton] at hrest
      rw [readLines_cons hs, Yield.append_complaints, accountOn, ← List.append_assoc]
      refine (hrest.append_left y.complaints).trans ?_
      rw [← List.append_assoc]
      exact hstep.append_right _

/-- Reading a file complains about what its lines are to be complained about, as often, and about
nothing else. -/
theorem read_account (path : SourcePath) (text : String) :
    (read path text).complaints.Perm (accountOn path [] (Text.lines text.toList)) :=
  account_readLines follows_start trivial path _

example : (accountOn ⟨"refs.bib"⟩ [] (Text.lines
    ("\x7d\n@misc\x7ba, note = \x7bopen,\n% more\nnote = \x7d,\n@misc\n" ++
      "@misc\x7bb, note = x\x7d\n@string\x7b\n\x7d\n@misc\x7bc,").toList)).map
      (fun c => (c.location.line, c.key, c.message)) =
    [(1, none, strayCloseMessage), (2, some "a", cutOffMessage "a" 5),
      (2, some "a", mismatchMessage "note" (.unclosed 1)),
      (4, some "a", mismatchMessage "note" (.prematureClose 1)), (5, none, malformedMessage),
      (9, some "c", endOfFileMessage "c")] := by
  decide +kernel

end BibAudit.Bib
